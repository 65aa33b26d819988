import ImportRepair.Proofs.Text.Utf8
import ImportRepair.Text.Search
import Mathlib.Tactic

/-!
# Searching and splicing encoded texts

UTF-8 tells the first byte of a character from all others. A text therefore occurs in another
exactly if its bytes occur in the bytes of the other, and it occurs first where they do.

Results:
* `encodeAll_of_decode`: bytes that can be read are those of the text read.
* `firstIndex?_encodeAll`: the first occurrence of a text, found among the bytes.
* `encodeAll_splice`: putting a text in is putting its bytes in.
-/

namespace ImportRepair

/-! ## Searching past elements that cannot start the word -/

section Search

variable {α : Type _} [DecidableEq α] {word s : List α}

theorem startsWith_cons_of_ne {a b : α} (h : a ≠ b) : startsWith (a :: word) (b :: s) = false := by
  rw [startsWith, List.isPrefixOf, beq_false_of_ne h, Bool.false_and]

/-- Elements other than the first one of the word are passed over. -/
theorem firstIndex?_append_of_not_mem {a : α} {front : List α} (h : a ∉ front) :
    firstIndex? (a :: word) (front ++ s) =
      (firstIndex? (a :: word) s).map (front.length + ·) := by
  induction front with
  | nil => simp
  | cons b front ih =>
    rw [List.mem_cons, not_or] at h
    rw [List.cons_append, firstIndex?, startsWith_cons_of_ne h.1, if_neg Bool.false_ne_true, ih h.2,
      Option.map_map]
    congr 1
    funext k
    simp only [Function.comp_apply, List.length_cons]
    omega

end Search

namespace Utf8

/-! ## The first byte of a character -/

/-- Whether a byte goes on with a character. -/
def isTail (b : UInt8) : Bool := decide (0x80 ≤ b.toNat) && decide (b.toNat < 0xC0)

theorem isTail_octet {n : Nat} (h : n < 64) : isTail (octet (0x80 + n)) = true := by
  rw [isTail, toNat_octet (by omega), Bool.and_eq_true, decide_eq_true_eq, decide_eq_true_eq]
  omega

theorem isTail_octet_low {n : Nat} (h : n < 0x80) : isTail (octet n) = false := by
  rw [isTail, toNat_octet (by omega), Bool.and_eq_false_iff, decide_eq_false_iff_not]
  omega

theorem isTail_octet_high {n : Nat} (h : 0xC0 ≤ n) (h' : n < 256) : isTail (octet n) = false := by
  rw [isTail, toNat_octet h', Bool.and_eq_false_iff, decide_eq_false_iff_not,
    decide_eq_false_iff_not]
  omega

/-- The bytes of a character: one that starts it, and those that go on with it. -/
theorem encodePoint_eq_cons (c : CodePoint) :
    ∃ b rest, encodePoint c = b :: rest ∧ isTail b = false ∧ ∀ x ∈ rest, isTail x = true := by
  have hlt : c.val < 0x110000 := c.isLt
  unfold encodePoint
  generalize c.val = n at hlt
  by_cases h1 : n < 0x80
  · exact ⟨_, _, if_pos h1, isTail_octet_low h1, by simp⟩
  by_cases h2 : n < 0x800
  · refine ⟨_, _, (if_neg h1).trans (if_pos h2), isTail_octet_high (by omega) (by omega), ?_⟩
    simp only [List.mem_singleton, forall_eq]
    exact isTail_octet (by omega)
  by_cases h3 : n < 0x10000
  · refine ⟨_, _, (if_neg h1).trans ((if_neg h2).trans (if_pos h3)),
      isTail_octet_high (by omega) (by omega), ?_⟩
    simp only [List.mem_cons, List.not_mem_nil, or_false, forall_eq_or_imp, forall_eq]
    exact ⟨isTail_octet (by omega), isTail_octet (by omega)⟩
  · refine ⟨_, _, (if_neg h1).trans ((if_neg h2).trans (if_neg h3)),
      isTail_octet_high (by omega) (by omega), ?_⟩
    simp only [List.mem_cons, List.not_mem_nil, or_false, forall_eq_or_imp, forall_eq]
    exact ⟨isTail_octet (by omega), isTail_octet (by omega), isTail_octet (by omega)⟩

theorem encodeAll_append (s t : Text) : encodeAll (s ++ t) = encodeAll s ++ encodeAll t :=
  List.flatMap_append ..

theorem encodeAll_cons (c : CodePoint) (t : Text) :
    encodeAll (c :: t) = encodePoint c ++ encodeAll t := rfl

/-! ## Searching -/

theorem isScalar_cons_iff {c : CodePoint} {t : Text} :
    Text.isScalar (c :: t) = true ↔ c.isSurrogate = false ∧ t.isScalar = true := by
  rw [Text.isScalar, List.all_cons, Bool.and_eq_true, Bool.not_eq_true', Text.isScalar]

/-- A text starts another one exactly if its bytes do. -/
theorem startsWith_encodeAll {l t : Text} (hl : l.isScalar = true) (ht : t.isScalar = true) :
    startsWith (encodeAll l) (encodeAll t) = startsWith l t := by
  rw [Bool.eq_iff_iff, startsWith_iff, startsWith_iff]
  constructor
  · rintro ⟨r, hr⟩
    induction l generalizing t with
    | nil => exact ⟨t, rfl⟩
    | cons c l ih =>
      rw [isScalar_cons_iff] at hl
      -- the first piece read is the first character, on both sides
      have hpieces := congrArg pieces hr
      rw [pieces_encodeAll ht, pieces, encodeAll_cons, List.append_assoc,
        piecesFrom_encodePoint hl.1] at hpieces
      cases t with
      | nil => cases hpieces
      | cons d t =>
        rw [List.map_cons, List.cons.injEq, Piece.character.injEq] at hpieces
        obtain ⟨rfl, -⟩ := hpieces
        rw [encodeAll_cons, encodeAll_cons, List.append_assoc, List.append_cancel_left_eq] at hr
        obtain ⟨s, rfl⟩ := ih hl.2 (isScalar_cons_iff.1 ht).2 hr
        exact ⟨s, rfl⟩
  · rintro ⟨r, rfl⟩
    exact ⟨encodeAll r, encodeAll_append l r⟩

/-- The first occurrence of a text among the bytes of another one. -/
theorem firstIndex?_encodeAll {l t : Text} (hne : l ≠ []) (hl : l.isScalar = true)
    (ht : t.isScalar = true) :
    firstIndex? (encodeAll l) (encodeAll t) =
      (firstIndex? l t).map fun k => (encodeAll (t.take k)).length := by
  obtain ⟨c, l, rfl⟩ := List.exists_cons_of_ne_nil hne
  obtain ⟨a, word, hword, ha, _⟩ := encodePoint_eq_cons c
  have hbytes : encodeAll (c :: l) = a :: (word ++ encodeAll l) := by
    rw [encodeAll_cons, hword, List.cons_append]
  induction t with
  | nil => rw [hbytes]; rfl
  | cons d t ih =>
    obtain ⟨b, rest, hrest, _, htail⟩ := encodePoint_eq_cons d
    have hstart := startsWith_encodeAll hl ht
    have hshort : encodeAll (d :: t) = b :: (rest ++ encodeAll t) := by
      rw [encodeAll_cons, hrest, List.cons_append]
    rw [hshort] at hstart
    rw [hshort, firstIndex?, firstIndex?, hstart]
    split
    · rfl
    · -- no byte that goes on with the character starts the text
      have hpast : a ∉ rest := by
        intro hmem
        rw [htail a hmem] at ha
        cases ha
      have hskip : firstIndex? (a :: (word ++ encodeAll l)) (rest ++ encodeAll t) = _ :=
        firstIndex?_append_of_not_mem hpast
      rw [← hbytes, ih (isScalar_cons_iff.1 ht).2] at hskip
      rw [hskip, Option.map_map, Option.map_map, Option.map_map]
      congr 1
      funext k
      simp only [Function.comp_apply, List.take_succ_cons, encodeAll_cons, hrest,
        List.length_append, List.length_cons]
      omega

theorem occursIn_encodeAll {l t : Text} (hne : l ≠ []) (hl : l.isScalar = true)
    (ht : t.isScalar = true) : occursIn (encodeAll l) (encodeAll t) = occursIn l t := by
  rw [occursIn, occursIn, firstIndex?_encodeAll hne hl ht, Option.isSome_map]

/-- Putting a text in is putting its bytes in. -/
theorem encodeAll_splice (k : Nat) (l t : Text) :
    encodeAll (splice k l t) =
      splice (encodeAll (t.take k)).length (encodeAll l) (encodeAll t) := by
  have hcut : encodeAll t = encodeAll (t.take k) ++ encodeAll (t.drop k) := by
    rw [← encodeAll_append, List.take_append_drop]
  rw [splice, splice, encodeAll_append, encodeAll_append]
  conv_rhs => rw [hcut]
  rw [List.take_left, List.drop_left]

/-! ## Bytes that can be read -/

theorem octet_toNat (b : UInt8) : octet b.toNat = b := UInt8.ofNat_toNat

/-- A character begun holds the bytes that every character with its value so far starts with. -/
inductive Spelled : Partial → Prop
  | two (v : Nat) (low high : UInt8) (hv : 2 ≤ v ∧ v < 32) (hl : 0x80 ≤ low.toNat)
      (hh : high.toNat ≤ 0xBF) : Spelled ⟨[octet (0xC0 + v)], v, 1, low, high⟩
  | three (v : Nat) (low high : UInt8) (hv : v < 16) (hl : 0x80 ≤ low.toNat)
      (hl' : v = 0 → 0xA0 ≤ low.toNat) (hh : high.toNat ≤ 0xBF) :
      Spelled ⟨[octet (0xE0 + v)], v, 2, low, high⟩
  | threeLast (v : Nat) (low high : UInt8) (hv : 32 ≤ v ∧ v < 1024) (hl : 0x80 ≤ low.toNat)
      (hh : high.toNat ≤ 0xBF) :
      Spelled ⟨[octet (0xE0 + v / 64), octet (0x80 + v % 64)], v, 1, low, high⟩
  | four (v : Nat) (low high : UInt8) (hv : v < 5) (hl : 0x80 ≤ low.toNat)
      (hl' : v = 0 → 0x90 ≤ low.toNat) (hh : high.toNat ≤ 0xBF) (hh' : v = 4 → high.toNat ≤ 0x8F) :
      Spelled ⟨[octet (0xF0 + v)], v, 3, low, high⟩
  | fourMore (v : Nat) (low high : UInt8) (hv : 16 ≤ v ∧ v < 272) (hl : 0x80 ≤ low.toNat)
      (hh : high.toNat ≤ 0xBF) :
      Spelled ⟨[octet (0xF0 + v / 64), octet (0x80 + v % 64)], v, 2, low, high⟩
  | fourLast (v : Nat) (low high : UInt8) (hv : 1024 ≤ v ∧ v < 17408) (hl : 0x80 ≤ low.toNat)
      (hh : high.toNat ≤ 0xBF) :
      Spelled ⟨[octet (0xF0 + v / 4096), octet (0x80 + v / 64 % 64), octet (0x80 + v % 64)], v, 1,
        low, high⟩

theorem Spelled.range {p : Partial} (hp : Spelled p) :
    0x80 ≤ p.low.toNat ∧ p.high.toNat ≤ 0xBF := by
  cases hp <;> exact ⟨by assumption, by assumption⟩

/-- What a byte can come to: a character is complete, one goes on, or no character is spelled so. -/
inductive Spells (begun : List UInt8) (b : UInt8) : List Piece × Option Partial → Prop
  | complete {c : CodePoint} (hc : encodePoint c = begun ++ [b]) :
      Spells begun b ([.character c], none)
  | goesOn {p : Partial} (hp : Spelled p) (hb : p.bytes = begun ++ [b]) :
      Spells begun b ([], some p)
  | stops {bytes : List UInt8} {reason : Reason} {more : List Piece} {p : Option Partial} :
      Spells begun b (.illFormed bytes reason :: more, p)

theorem spells_start (b : UInt8) : Spells [] b (start b) := by
  have hb := b.toNat_lt
  have hsame := octet_toNat b
  unfold start
  simp only
  split_ifs with h1 h2 h3 h4 h5 h6 h7 h8
  · refine .complete ?_
    have hval : (CodePoint.clamp b.toNat).val = b.toNat := by
      show min b.toNat 0x10FFFF = b.toNat
      omega
    rw [encodePoint, hval, if_pos h1, hsame, List.nil_append]
  · have hv : 0xC0 + (b.toNat - 0xC0) = b.toNat := by omega
    refine .goesOn ?_ rfl
    have hp := Spelled.two (b.toNat - 0xC0) 0x80 0xBF (by omega) (by simp)
      (by simp)
    rwa [hv, hsame] at hp
  · have hp := Spelled.three 0 0xA0 0xBF (by omega) (by simp) (by simp)
      (by simp)
    refine .goesOn ?_ rfl
    rwa [show 0xE0 + 0 = b.toNat by omega, hsame] at hp
  · have hp := Spelled.three 0xD 0x80 0x9F (by omega) (by simp) (by simp)
      (by simp)
    refine .goesOn ?_ rfl
    rwa [show 0xE0 + 0xD = b.toNat by omega, hsame] at hp
  · have hp := Spelled.three (b.toNat - 0xE0) 0x80 0xBF (by omega) (by simp)
      (by omega) (by simp)
    refine .goesOn ?_ rfl
    rwa [show 0xE0 + (b.toNat - 0xE0) = b.toNat by omega, hsame] at hp
  · have hp := Spelled.four 0 0x90 0xBF (by omega) (by simp) (by simp)
      (by simp) (by simp)
    refine .goesOn ?_ rfl
    rwa [show 0xF0 + 0 = b.toNat by omega, hsame] at hp
  · have hp := Spelled.four (b.toNat - 0xF0) 0x80 0xBF (by omega) (by simp)
      (by omega) (by simp) (by omega)
    refine .goesOn ?_ rfl
    rwa [show 0xF0 + (b.toNat - 0xF0) = b.toNat by omega, hsame] at hp
  · have hp := Spelled.four 4 0x80 0x8F (by omega) (by simp) (by simp)
      (by simp) (by simp)
    refine .goesOn ?_ rfl
    rwa [show 0xF0 + 4 = b.toNat by omega, hsame] at hp
  · exact .stops

/-- The bytes of a character of two, by the value of the first and the last six bits of the
second. -/
theorem encodePoint_clamp_two {v n : Nat} (hv : 2 ≤ v ∧ v < 32) (hn : n < 64) :
    encodePoint (.clamp (v * 64 + n)) = [octet (0xC0 + v), octet (0x80 + n)] := by
  have hval : (CodePoint.clamp (v * 64 + n)).val = v * 64 + n := by
    show min (v * 64 + n) 0x10FFFF = v * 64 + n
    omega
  rw [encodePoint, hval, if_neg (by omega), if_pos (by omega),
    show (v * 64 + n) / 64 = v by omega, show (v * 64 + n) % 64 = n by omega]

theorem encodePoint_clamp_three {v n : Nat} (hv : 32 ≤ v ∧ v < 1024) (hn : n < 64) :
    encodePoint (.clamp (v * 64 + n)) =
      [octet (0xE0 + v / 64), octet (0x80 + v % 64), octet (0x80 + n)] := by
  have hval : (CodePoint.clamp (v * 64 + n)).val = v * 64 + n := by
    show min (v * 64 + n) 0x10FFFF = v * 64 + n
    omega
  rw [encodePoint, hval, if_neg (by omega), if_neg (by omega), if_pos (by omega),
    show (v * 64 + n) / 4096 = v / 64 by omega, show (v * 64 + n) / 64 = v by omega,
    show (v * 64 + n) % 64 = n by omega]

theorem encodePoint_clamp_four {v n : Nat} (hv : 1024 ≤ v ∧ v < 17408) (hn : n < 64) :
    encodePoint (.clamp (v * 64 + n)) =
      [octet (0xF0 + v / 4096), octet (0x80 + v / 64 % 64), octet (0x80 + v % 64),
        octet (0x80 + n)] := by
  have hval : (CodePoint.clamp (v * 64 + n)).val = v * 64 + n := by
    show min (v * 64 + n) 0x10FFFF = v * 64 + n
    omega
  rw [encodePoint, hval, if_neg (by omega), if_neg (by omega), if_neg (by omega),
    show (v * 64 + n) / 262144 = v / 4096 by omega, show (v * 64 + n) / 4096 = v / 64 by omega,
    show (v * 64 + n) / 64 = v by omega, show (v * 64 + n) % 64 = n by omega]

theorem spells_step {p : Partial} (hp : Spelled p) (b : UInt8) :
    Spells p.bytes b (step (some p) b) := by
  rw [step]
  split
  case isFalse => exact .stops
  case isTrue hin =>
    rw [UInt8.le_iff_toNat_le, UInt8.le_iff_toNat_le] at hin
    -- a byte in the range is told by its last six bits
    have hlast : octet (0x80 + b.toNat % 64) = b := by
      have hrange := hp.range
      rw [show 0x80 + b.toNat % 64 = b.toNat by omega, octet_toNat]
    have hmod : b.toNat % 64 < 64 := Nat.mod_lt _ (by decide)
    cases hp <;> simp only at hin
    case two hv hl hh =>
      refine .complete ?_
      rw [encodePoint_clamp_two hv hmod, hlast]
      rfl
    case threeLast hv hl hh =>
      refine .complete ?_
      rw [encodePoint_clamp_three hv hmod, hlast]
      rfl
    case fourLast hv hl hh =>
      refine .complete ?_
      rw [encodePoint_clamp_four hv hmod, hlast]
      rfl
    case three v low high hv hl hl' hh =>
      have hnext := Spelled.threeLast (v * 64 + b.toNat % 64) 0x80 0xBF
        (by omega) (by simp) (by simp)
      rw [show (v * 64 + b.toNat % 64) / 64 = v by omega,
        show (v * 64 + b.toNat % 64) % 64 = b.toNat % 64 by omega,
        hlast] at hnext
      exact .goesOn hnext rfl
    case four v low high hv hl hl' hh hh' =>
      have hnext := Spelled.fourMore (v * 64 + b.toNat % 64) 0x80 0xBF
        (by omega) (by simp) (by simp)
      rw [show (v * 64 + b.toNat % 64) / 64 = v by omega,
        show (v * 64 + b.toNat % 64) % 64 = b.toNat % 64 by omega,
        hlast] at hnext
      exact .goesOn hnext rfl
    case fourMore v low high hv hl hh =>
      have hnext := Spelled.fourLast (v * 64 + b.toNat % 64) 0x80 0xBF
        (by omega) (by simp) (by simp)
      rw [show (v * 64 + b.toNat % 64) / 4096 = v / 64 by omega,
        show (v * 64 + b.toNat % 64) / 64 = v by omega,
        show (v * 64 + b.toNat % 64) % 64 = b.toNat % 64 by omega,
        hlast] at hnext
      exact .goesOn hnext rfl

/-- The bytes of a character begun, if there is one. -/
def begun (p : Option Partial) : List UInt8 := p.elim [] Partial.bytes

/-- Bytes that are read as characters alone are the bytes of these characters. -/
theorem encodeAll_of_piecesFrom {p : Option Partial} (hp : ∀ q ∈ p, Spelled q) {bs : List UInt8}
    {t : Text} (h : piecesFrom p bs = t.map .character) : encodeAll t = begun p ++ bs := by
  induction bs generalizing p t with
  | nil =>
    cases p with
    | none =>
      rw [piecesFrom, eq_comm, List.map_eq_nil_iff] at h
      rw [h]
      rfl
    | some q =>
      cases t with
      | nil => cases h
      | cons c t => cases h
  | cons b bs ih =>
    have hstep : Spells (begun p) b (step p b) := by
      cases p with
      | none => exact spells_start b
      | some q => exact spells_step (hp q rfl) b
    rw [piecesFrom] at h
    generalize step p b = next at hstep h
    cases hstep with
    | @complete c hc =>
      cases t with
      | nil => cases h
      | cons d t =>
        rw [List.map_cons, List.singleton_append, List.cons.injEq, Piece.character.injEq] at h
        obtain ⟨rfl, h⟩ := h
        rw [encodeAll_cons, hc, ih (by simp) h, List.append_assoc]
        rfl
    | @goesOn q hq hb =>
      rw [ih (by simpa using hq) h, begun, Option.elim_some, hb, List.append_assoc]
      rfl
    | stops =>
      cases t with
      | nil => cases h
      | cons d t => cases h

/-- Bytes that can be read are the bytes of the text read. -/
theorem encodeAll_of_decode {bytes : List UInt8} {t : Text} (h : decode bytes = .ok t) :
    encodeAll t = bytes :=
  encodeAll_of_piecesFrom (p := none) (by simp) (decode_eq_ok_iff.1 h)

/-- What can be read are exactly the bytes of texts without surrogates. -/
theorem decode_eq_ok_iff_encodeAll {bytes : List UInt8} {t : Text} :
    decode bytes = .ok t ↔ t.isScalar = true ∧ bytes = encodeAll t := by
  constructor
  · intro h
    exact ⟨isScalar_of_decode h, (encodeAll_of_decode h).symm⟩
  · rintro ⟨ht, rfl⟩
    exact decode_encodeAll ht

end Utf8

end ImportRepair

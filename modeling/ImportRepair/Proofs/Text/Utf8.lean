import ImportRepair.Text.Utf8
import Mathlib.Tactic

/-!
# UTF-8 reads what it writes

Results:
* `encode_eq_ok_iff`: exactly the texts without surrogates can be written.
* `decode_encodeAll`: a text without surrogates is read back from its bytes.
* `isScalar_of_decode`: what is read from bytes has no surrogates.
-/

namespace ImportRepair

/-! ## Texts without surrogates -/

namespace Text

theorem isScalar_iff {t : Text} : t.isScalar = true ↔ ∀ c ∈ t, c.isSurrogate = false := by
  rw [isScalar, List.all_eq_true]
  simp only [Bool.not_eq_true']

theorem isScalar_append (t u : Text) : isScalar (t ++ u) = (t.isScalar && u.isScalar) :=
  List.all_append

end Text

namespace Utf8

/-! ## Writing -/

theorem findIdx?_isSurrogate_eq_none_iff {t : Text} :
    t.findIdx? CodePoint.isSurrogate = none ↔ t.isScalar = true := by
  rw [List.findIdx?_eq_none_iff, Text.isScalar_iff]

theorem encode_eq_ok_iff {t : Text} {data : List UInt8} :
    encode t = .ok data ↔ t.isScalar = true ∧ data = encodeAll t := by
  unfold encode
  cases h : t.findIdx? CodePoint.isSurrogate with
  | none =>
    simp only [findIdx?_isSurrogate_eq_none_iff.1 h, true_and, Except.ok.injEq, eq_comm]
  | some k =>
    have : t.isScalar = false := by
      rw [← Bool.not_eq_true, ← findIdx?_isSurrogate_eq_none_iff, h]
      simp
    simp [this]

/-! ## Reading what was written -/

theorem toNat_octet {n : Nat} (h : n < 256) : (octet n).toNat = n := by
  rw [octet, UInt8.toNat_ofNat']
  omega

theorem clamp_val (c : CodePoint) : CodePoint.clamp c.val = c := by
  apply Fin.ext
  show min c.val 0x10FFFF = c.val
  omega

/-- A byte that continues the character begun. -/
theorem piecesFrom_continue {p : Partial} {n : Nat} {bs : List UInt8} (hn : n < 256)
    (hlow : p.low.toNat ≤ n) (hhigh : n ≤ p.high.toNat) :
    piecesFrom (some p) (octet n :: bs) =
      if p.missing ≤ 1 then .character (.clamp (p.value * 64 + n % 64)) :: piecesFrom none bs
      else piecesFrom
        (some ⟨p.bytes ++ [octet n], p.value * 64 + n % 64, p.missing - 1, 0x80, 0xBF⟩) bs := by
  have hin : p.low ≤ octet n ∧ octet n ≤ p.high := by
    rw [UInt8.le_iff_toNat_le, UInt8.le_iff_toNat_le, toNat_octet hn]
    exact ⟨hlow, hhigh⟩
  rw [piecesFrom, step, if_pos hin, toNat_octet hn]
  split <;> rfl

/-- The first byte of a character of two. -/
theorem start_two {n : Nat} (h : 0xC2 ≤ n ∧ n ≤ 0xDF) :
    start (octet n) = ([], some ⟨[octet n], n - 0xC0, 1, 0x80, 0xBF⟩) := by
  simp only [start, toNat_octet (show n < 256 by omega)]
  rw [if_neg (by omega), if_pos h]

/-- The first byte of a character of three. Two first bytes narrow the range of the next one. -/
theorem start_three {n : Nat} (h : 0xE0 ≤ n ∧ n ≤ 0xEF) :
    start (octet n) = ([], some ⟨[octet n], n - 0xE0, 2, if n = 0xE0 then 0xA0 else 0x80,
      if n = 0xED then 0x9F else 0xBF⟩) := by
  simp only [start, toNat_octet (show n < 256 by omega)]
  rw [if_neg (by omega), if_neg (by omega)]
  by_cases h0 : n = 0xE0
  · subst h0; rfl
  · rw [if_neg h0, if_neg h0]
    by_cases hd : n = 0xED
    · subst hd; rfl
    · rw [if_neg hd, if_neg hd, if_pos (by omega)]

/-- The first byte of a character of four. -/
theorem start_four {n : Nat} (h : 0xF0 ≤ n ∧ n ≤ 0xF4) :
    start (octet n) = ([], some ⟨[octet n], n - 0xF0, 3, if n = 0xF0 then 0x90 else 0x80,
      if n = 0xF4 then 0x8F else 0xBF⟩) := by
  simp only [start, toNat_octet (show n < 256 by omega)]
  rw [if_neg (by omega), if_neg (by omega), if_neg (by omega), if_neg (by omega), if_neg (by omega)]
  by_cases h0 : n = 0xF0
  · subst h0; rfl
  · rw [if_neg h0, if_neg h0]
    by_cases h4 : n = 0xF4
    · subst h4; rfl
    · rw [if_neg h4, if_pos (by omega), if_neg h4]

theorem piecesFrom_start {n : Nat} {p : Option Partial} {bs : List UInt8}
    (h : start (octet n) = ([], p)) : piecesFrom none (octet n :: bs) = piecesFrom p bs := by
  rw [piecesFrom, step, h]
  rfl

/-- The bytes of a character are read as one piece. Surrogates are what the range after `0xED`
leaves out; what has a shorter spelling is what the ranges after `0xE0` and `0xF0` leave out. -/
theorem piecesFrom_encodePoint {c : CodePoint} (hc : c.isSurrogate = false) (bs : List UInt8) :
    piecesFrom none (encodePoint c ++ bs) = .character c :: piecesFrom none bs := by
  have hlt : c.val < 0x110000 := c.isLt
  have hsur : c.val < 0xD800 ∨ 0xDFFF < c.val := by
    simp only [CodePoint.isSurrogate, Bool.and_eq_false_iff, decide_eq_false_iff_not] at hc
    omega
  have hclamp := clamp_val c
  unfold encodePoint
  generalize c.val = n at hlt hsur hclamp
  rw [← hclamp]
  by_cases h1 : n < 0x80
  · simp only [if_pos h1, List.cons_append, List.nil_append]
    rw [piecesFrom, step, start, toNat_octet (by omega)]
    simp only [if_pos h1]
    rfl
  by_cases h2 : n < 0x800
  · simp only [if_neg h1, if_pos h2, List.cons_append, List.nil_append]
    rw [piecesFrom_start (start_two (by omega)),
      piecesFrom_continue (by omega) (by simp) (by simp; omega), if_pos le_rfl]
    congr 3
    simp only
    omega
  by_cases h3 : n < 0x10000
  · simp only [if_neg h1, if_neg h2, if_pos h3, List.cons_append, List.nil_append]
    rw [piecesFrom_start (start_three (by omega)),
      piecesFrom_continue (by omega) (by simp only; split <;> simp; omega)
        (by simp only; split <;> simp; all_goals omega),
      if_neg (by simp), piecesFrom_continue (by omega) (by simp) (by simp; omega), if_pos (by simp)]
    congr 3
    simp only
    omega
  · simp only [if_neg h1, if_neg h2, if_neg h3, List.cons_append, List.nil_append]
    rw [piecesFrom_start (start_four (by omega)),
      piecesFrom_continue (by omega) (by simp only; split <;> simp; omega)
        (by simp only; split <;> simp; all_goals omega),
      if_neg (by simp), piecesFrom_continue (by omega) (by simp) (by simp; omega), if_neg (by simp),
      piecesFrom_continue (by omega) (by simp) (by simp; omega), if_pos (by simp)]
    congr 3
    simp only
    omega

theorem pieces_encodeAll {t : Text} (h : t.isScalar = true) :
    pieces (encodeAll t) = t.map .character := by
  unfold pieces encodeAll
  induction t with
  | nil => rfl
  | cons c t ih =>
    rw [Text.isScalar, List.all_cons, Bool.and_eq_true, Bool.not_eq_true'] at h
    rw [List.flatMap_cons, piecesFrom_encodePoint h.1, ih h.2, List.map_cons]

theorem decode_encodeAll {t : Text} (h : t.isScalar = true) : decode (encodeAll t) = .ok t :=
  decode_eq_ok_iff.2 (pieces_encodeAll h)

/-! ## What can be read -/

/-- A character begun that cannot become a surrogate: the largest value that it can have is below
them, or the least one is above. -/
structure Partial.Clear (p : Partial) : Prop where
  missing : p.missing = 1 ∨ p.missing = 2 ∨ p.missing = 3
  low : 0x80 ≤ p.low.toNat
  high : p.high.toNat ≤ 0xBF
  clear : (p.value * 64 + (p.high.toNat - 0x80) + 1) * 64 ^ (p.missing - 1) ≤ 0xD800 ∨
    0xE000 ≤ (p.value * 64 + (p.low.toNat - 0x80)) * 64 ^ (p.missing - 1)

/-- No piece is a surrogate. -/
def Piece.IsClear : Piece → Prop
  | .character c => c.isSurrogate = false
  | .illFormed _ _ => True

theorem isSurrogate_clamp {n : Nat} (h : n < 0xD800 ∨ 0xE000 ≤ n) :
    (CodePoint.clamp n).isSurrogate = false := by
  have hmin : (CodePoint.clamp n).val = min n 0x10FFFF := rfl
  rw [CodePoint.isSurrogate, hmin, Bool.and_eq_false_iff, decide_eq_false_iff_not,
    decide_eq_false_iff_not]
  omega

theorem start_clear (b : UInt8) :
    (∀ piece ∈ (start b).1, piece.IsClear) ∧ ∀ p ∈ (start b).2, p.Clear := by
  have hb := b.toNat_lt
  unfold start
  simp only
  split_ifs with h1 h2 h3 h4 h5 h6 h7 h8
  all_goals refine ⟨?_, ?_⟩
  all_goals simp only [List.mem_singleton, List.not_mem_nil, Option.mem_def, Option.some.injEq,
    reduceCtorEq, forall_eq, forall_eq', false_imp_iff, implies_true, Piece.IsClear]
  · exact isSurrogate_clamp (by omega)
  all_goals exact ⟨by simp, by simp, by simp, by simp only [UInt8.reduceToNat]; omega⟩

/-- Another byte narrows the values that a character begun can have. -/
theorem Partial.Clear.next {p : Partial} (h : p.Clear) {n : Nat} (hlow : p.low.toNat ≤ n)
    (hhigh : n ≤ p.high.toNat) (hm : 1 < p.missing) (bytes : List UInt8) :
    (⟨bytes, p.value * 64 + n % 64, p.missing - 1, 0x80, 0xBF⟩ : Partial).Clear := by
  obtain ⟨hmissing, hl, hh, hc⟩ := h
  obtain ⟨k, hk⟩ : ∃ k, p.missing - 1 = k + 1 := ⟨p.missing - 2, by omega⟩
  rw [hk, pow_succ'] at hc
  refine ⟨by simp only; omega, by simp, by simp, ?_⟩
  simp only [hk, UInt8.reduceToNat, Nat.add_one_sub_one]
  obtain hc | hc := hc
  · left
    calc ((p.value * 64 + n % 64) * 64 + (191 - 128) + 1) * 64 ^ k
        = (p.value * 64 + n % 64 + 1) * (64 * 64 ^ k) := by ring
      _ ≤ (p.value * 64 + (p.high.toNat - 0x80) + 1) * (64 * 64 ^ k) :=
          Nat.mul_le_mul_right _ (by omega)
      _ ≤ 0xD800 := hc
  · right
    calc 0xE000 ≤ (p.value * 64 + (p.low.toNat - 0x80)) * (64 * 64 ^ k) := hc
      _ ≤ (p.value * 64 + n % 64) * (64 * 64 ^ k) := Nat.mul_le_mul_right _ (by omega)
      _ = ((p.value * 64 + n % 64) * 64 + (128 - 128)) * 64 ^ k := by ring

/-- The last byte makes a character that is no surrogate. -/
theorem Partial.Clear.last {p : Partial} (h : p.Clear) {n : Nat} (hlow : p.low.toNat ≤ n)
    (hhigh : n ≤ p.high.toNat) (hm : p.missing ≤ 1) :
    (CodePoint.clamp (p.value * 64 + n % 64)).isSurrogate = false := by
  obtain ⟨hmissing, hl, hh, hc⟩ := h
  have hone : p.missing = 1 := by omega
  rw [hone] at hc
  norm_num at hc
  apply isSurrogate_clamp
  omega

theorem step_clear {p : Option Partial} (hp : ∀ q ∈ p, q.Clear) (b : UInt8) :
    (∀ piece ∈ (step p b).1, piece.IsClear) ∧ ∀ q ∈ (step p b).2, q.Clear := by
  cases p with
  | none => exact start_clear b
  | some p =>
    have hclear : p.Clear := hp p rfl
    rw [step]
    split
    · next hin =>
      rw [UInt8.le_iff_toNat_le, UInt8.le_iff_toNat_le] at hin
      simp only
      split
      · next hle =>
        refine ⟨?_, by simp⟩
        intro piece hpiece
        rw [List.mem_singleton.1 hpiece]
        exact hclear.last hin.1 hin.2 hle
      · next hgt =>
        refine ⟨by simp, ?_⟩
        intro q hq
        cases hq
        exact hclear.next hin.1 hin.2 (by omega) _
    · obtain ⟨h1, h2⟩ := start_clear b
      simp only [List.mem_cons, forall_eq_or_imp]
      exact ⟨⟨trivial, h1⟩, h2⟩

theorem piecesFrom_clear {p : Option Partial} (hp : ∀ q ∈ p, q.Clear) (bs : List UInt8) :
    ∀ piece ∈ piecesFrom p bs, piece.IsClear := by
  induction bs generalizing p with
  | nil =>
    cases p with
    | none => simp [piecesFrom]
    | some p => simp [piecesFrom, Piece.IsClear]
  | cons b bs ih =>
    obtain ⟨h1, h2⟩ := step_clear hp b
    intro piece hpiece
    rw [piecesFrom, List.mem_append] at hpiece
    obtain h | h := hpiece
    · exact h1 piece h
    · exact ih h2 piece h

theorem isScalar_of_decode {bytes : List UInt8} {t : Text} (h : decode bytes = .ok t) :
    t.isScalar = true := by
  rw [decode_eq_ok_iff] at h
  have hclear := piecesFrom_clear (p := none) (by simp) bytes
  rw [show piecesFrom none bytes = t.map .character from h] at hclear
  rw [Text.isScalar_iff]
  intro c hc
  exact hclear _ (List.mem_map_of_mem hc)

end Utf8

end ImportRepair

import ImportRepair.Proofs.Text.Classes
import ImportRepair.Reference.ErrorLine
import Mathlib.Data.List.TakeWhile

/-!
# How error lines are read

A line can be read as an error line by cutting it after a path, if what follows the path is a
position, the complaint and a name. Of all cuts the one with the longest path counts. What follows a
path holds the complaint only once, unless the free text at the end of the line holds it too; so
there is no choice then, whatever the path holds.

Results:
* `isPath_iff`, `typeAfterPath?_eq_some_iff`: what a path is, and what may follow it.
* `read_eq_some_iff`: a line is read by the cut with the longest path.
* `read_of_tail`: the cut that a line was written with is the one that it is read by.
-/

namespace ImportRepair.ErrorLine

/-- The colon. -/
def colon : CodePoint := ':'

/-- A number: digits, at least one. -/
def IsNumber (t : Text) : Prop := t ≠ [] ∧ ∀ c ∈ t, c.isDigit = true

/-- A name: word characters, at least one. -/
def IsName (t : Text) : Prop := t ≠ [] ∧ ∀ c ∈ t, c.isWord = true

/-- What follows the path of an error line. -/
def tail (line column name rest : Text) : Text :=
  colon :: (line ++ colon :: (column ++ (complaint ++ (name ++ (ending ++ rest)))))

instance (t : Text) : Decidable (IsNumber t) :=
  decidable_of_iff (t ≠ [] ∧ t.all CodePoint.isDigit = true) (by rw [IsNumber, List.all_eq_true])

instance (t : Text) : Decidable (IsName t) :=
  decidable_of_iff (t ≠ [] ∧ t.all CodePoint.isWord = true) (by rw [IsName, List.all_eq_true])

/-! ## Parts of a line -/

theorem after?_eq_some_iff {word s rest : Text} : after? word s = some rest ↔ s = word ++ rest := by
  rw [after?]
  split
  · next h =>
    obtain ⟨r, rfl⟩ := startsWith_iff.1 h
    rw [List.drop_left, Option.some.injEq, List.append_cancel_left_eq]
  · next h =>
    constructor
    · intro hnone
      cases hnone
    · rintro rfl
      exact absurd (startsWith_iff.2 ⟨rest, rfl⟩) h

/-- The longest run of members at the start of a list is the given one, if a
non-member follows it. -/
theorem takeWhile_append_stop {p : CodePoint → Bool} {t rest : Text} (ht : ∀ c ∈ t, p c = true)
    (hrest : ∀ c ∈ rest.head?, p c = false) :
    (t ++ rest).takeWhile p = t ∧ (t ++ rest).dropWhile p = rest := by
  rw [List.takeWhile_append_of_pos ht, List.dropWhile_append_of_pos ht]
  cases rest with
  | nil => simp
  | cons c rest =>
    have hc : ¬p c = true := by rw [hrest c rfl]; exact Bool.false_ne_true
    rw [List.takeWhile_cons_of_neg hc, List.dropWhile_cons_of_neg hc, List.append_nil]
    exact ⟨rfl, rfl⟩

theorem head?_dropWhile {p : CodePoint → Bool} (t : Text) :
    ∀ c ∈ (t.dropWhile p).head?, p c = false := by
  intro c hc
  have hnot := List.head?_dropWhile_not p t
  rw [Option.mem_def] at hc
  rw [hc] at hnot
  simpa using hnot

theorem afterNumber?_eq_some_iff {s rest : Text} :
    afterNumber? s = some rest ↔
      ∃ number, IsNumber number ∧ (∀ c ∈ rest.head?, c.isDigit = false) ∧
        s = colon :: (number ++ rest) := by
  rw [afterNumber?]
  constructor
  · intro h
    obtain ⟨u, hu, h⟩ := Option.bind_eq_some_iff.1 h
    rw [after?_eq_some_iff] at hu
    split at h
    · cases h
    · next hne =>
      cases h
      refine ⟨u.takeWhile CodePoint.isDigit, ⟨hne, fun c hc => List.mem_takeWhile_imp hc⟩,
        head?_dropWhile u, ?_⟩
      rw [List.takeWhile_append_dropWhile, hu]
      rfl
  · rintro ⟨number, ⟨hne, hdigits⟩, hrest, rfl⟩
    obtain ⟨htake, hdrop⟩ := takeWhile_append_stop hdigits hrest
    have hcolon : after? ":" (colon :: (number ++ rest)) = some (number ++ rest) :=
      after?_eq_some_iff.2 rfl
    rw [hcolon, Option.bind_eq_bind, Option.bind_some, htake, if_neg hne, hdrop]

/-- What may follow the path of an error line that names a type. -/
theorem typeAfterPath?_eq_some_iff {s name : Text} :
    typeAfterPath? s = some name ↔
      ∃ line column rest, IsNumber line ∧ IsNumber column ∧ IsName name ∧
        s = tail line column name rest := by
  rw [typeAfterPath?]
  constructor
  · intro h
    obtain ⟨s₁, h₁, hs₁⟩ := Option.bind_eq_some_iff.1 h
    obtain ⟨s₂, h₂, hs₂⟩ := Option.bind_eq_some_iff.1 hs₁
    obtain ⟨s₃, h₃, hs₃⟩ := Option.bind_eq_some_iff.1 hs₂
    obtain ⟨line, hline, _, rfl⟩ := afterNumber?_eq_some_iff.1 h₁
    obtain ⟨column, hcolumn, _, rfl⟩ := afterNumber?_eq_some_iff.1 h₂
    rw [after?_eq_some_iff] at h₃
    subst h₃
    dsimp only at hs₃
    split at hs₃
    · cases hs₃
    · next hne =>
      obtain ⟨rest, hrest, hname⟩ := Option.bind_eq_some_iff.1 hs₃
      cases hname
      rw [after?_eq_some_iff] at hrest
      refine ⟨line, column, rest, hline, hcolumn, ⟨hne, fun c hc => List.mem_takeWhile_imp hc⟩, ?_⟩
      rw [tail, ← hrest, List.prefix_iff_eq_append.1 (List.takeWhile_prefix CodePoint.isWord)]
  · rintro ⟨line, column, rest, hline, hcolumn, hname, rfl⟩
    have hstop : ∀ u : Text, ∀ c ∈ (colon :: u).head?, c.isDigit = false := by
      intro u c hc
      cases hc
      decide
    have h₁ : afterNumber? (tail line column name rest) =
        some (colon :: (column ++ (complaint ++ (name ++ (ending ++ rest))))) :=
      afterNumber?_eq_some_iff.2 ⟨line, hline, hstop _, rfl⟩
    have h₂ : afterNumber? (colon :: (column ++ (complaint ++ (name ++ (ending ++ rest))))) =
        some (complaint ++ (name ++ (ending ++ rest))) :=
      afterNumber?_eq_some_iff.2 ⟨column, hcolumn, hstop _, rfl⟩
    have h₃ : after? complaint (complaint ++ (name ++ (ending ++ rest))) =
        some (name ++ (ending ++ rest)) := after?_eq_some_iff.2 rfl
    have hword : (name ++ (ending ++ rest)).takeWhile CodePoint.isWord = name := by
      refine (takeWhile_append_stop hname.2 ?_).1
      intro c hc
      cases hc
      decide
    have h₄ : after? ending ((name ++ (ending ++ rest)).drop name.length) = some rest := by
      rw [List.drop_left, after?_eq_some_iff]
    simp only [h₁, h₂, h₃, Option.bind_eq_bind, Option.bind_some, hword, if_neg hname.1, h₄]

/-- What a path is: a slash, at least one character on the same line, a point, and the extension. -/
theorem isPath_iff {extension path : Text} :
    isPath extension path = true ↔
      ∃ stem, stem ≠ [] ∧ Text.lf ∉ stem ∧
        path = ('/' : CodePoint) :: (stem ++ ('.' : CodePoint) :: extension) := by
  rw [isPath]
  simp only [Bool.and_eq_true, decide_eq_true_eq, Bool.not_eq_true']
  constructor
  · rintro ⟨⟨⟨hsuffix, hslash⟩, hlen⟩, hlf⟩
    generalize hs : path.take (path.length - (('.' : CodePoint) :: extension).length) = stem at *
    have hpath : path = stem ++ ('.' : CodePoint) :: extension := by
      conv_lhs => rw [← List.take_append_drop stem.length path]
      rw [hsuffix]
      congr 1
      rw [← hs, List.length_take, List.take_eq_take_iff]
      omega
    cases stem with
    | nil => cases hslash
    | cons c stem =>
      cases hslash
      refine ⟨stem, ?_, ?_, hpath⟩
      · rintro rfl
        simp at hlen
      · intro hmem
        rw [List.contains_eq_mem, decide_eq_false_iff_not] at hlf
        exact hlf (List.mem_cons_of_mem _ hmem)
  · rintro ⟨stem, hne, hlf, rfl⟩
    have htake : (('/' : CodePoint) :: (stem ++ ('.' : CodePoint) :: extension)).take
        ((('/' : CodePoint) :: (stem ++ ('.' : CodePoint) :: extension)).length -
          (('.' : CodePoint) :: extension).length) = ('/' : CodePoint) :: stem := by
      rw [← List.cons_append, List.take_left']
      simp only [List.length_append, List.length_cons]
      omega
    rw [htake]
    refine ⟨⟨⟨?_, rfl⟩, ?_⟩, ?_⟩
    · rw [← List.cons_append, List.drop_left]
    · have hpos := List.length_pos_iff.2 hne
      rw [List.length_cons]
      omega
    · rw [List.contains_eq_mem, decide_eq_false_iff_not, List.mem_cons, not_or]
      exact ⟨by decide, hlf⟩

/-! ## Cuts -/

theorem readFrom_eq_none_iff {extension before rest : Text} :
    readFrom extension before rest = none ↔
      ∀ u v, rest = u ++ v → isPath extension (before.reverse ++ u) = true →
        typeAfterPath? v = none := by
  induction rest generalizing before with
  | nil =>
    refine iff_of_true rfl ?_
    intro u v huv _
    rw [(List.append_eq_nil_iff.1 huv.symm).2]
    rfl
  | cons c rest ih =>
    rw [readFrom]
    constructor
    · intro h u v huv hpath
      split at h
      · cases h
      next hnone =>
      cases u with
      | nil =>
        rw [List.nil_append] at huv
        subst huv
        rw [List.append_nil] at hpath
        split at h
        · rw [if_pos hpath] at h
          cases h
        · assumption
      | cons d u =>
        rw [List.cons_append, List.cons.injEq] at huv
        obtain ⟨rfl, rfl⟩ := huv
        refine ih.1 hnone u v rfl ?_
        rw [List.reverse_cons, List.append_assoc]
        exact hpath
    · intro h
      have hnone : readFrom extension (c :: before) rest = none := by
        refine ih.2 fun u v huv hpath => h (c :: u) v (by rw [huv]; rfl) ?_
        rw [List.reverse_cons, List.append_assoc] at hpath
        exact hpath
      rw [hnone]
      simp only
      split
      · next name hname =>
        have hnot := h [] (c :: rest) rfl
        rw [List.append_nil, hname] at hnot
        rw [if_neg fun hpath => by cases hnot hpath]
      · rfl

/-- A line is read by the cut with the longest path. -/
theorem readFrom_eq_some_iff {extension before rest : Text} {r : Reference} :
    readFrom extension before rest = some r ↔
      ∃ u v, rest = u ++ v ∧ r.path = before.reverse ++ u ∧ isPath extension r.path = true ∧
        typeAfterPath? v = some r.type ∧
        ∀ u' v', rest = u' ++ v' → u.length < u'.length →
          isPath extension (before.reverse ++ u') = true → typeAfterPath? v' = none := by
  induction rest generalizing before r with
  | nil =>
    constructor
    · intro h
      cases h
    · rintro ⟨u, v, huv, _, _, htype, _⟩
      rw [(List.append_eq_nil_iff.1 huv.symm).2] at htype
      cases htype
  | cons c rest ih =>
    have hshift : ∀ u : Text, (c :: before).reverse ++ u = before.reverse ++ c :: u := by
      intro u
      rw [List.reverse_cons, List.append_assoc, List.singleton_append]
    rw [readFrom]
    cases hlonger : readFrom extension (c :: before) rest with
    | some r' =>
      simp only [Option.some.injEq]
      constructor
      · rintro rfl
        obtain ⟨u, v, rfl, hpath, hisPath, htype, hmax⟩ := ih.1 hlonger
        refine ⟨c :: u, v, rfl, by rw [hpath, hshift], hisPath, htype, ?_⟩
        intro u' v' huv hlen hpath'
        cases u' with
        | nil => cases hlen
        | cons d u' =>
          rw [List.cons_append, List.cons.injEq] at huv
          obtain ⟨rfl, huv⟩ := huv
          exact hmax u' v' huv (Nat.lt_of_succ_lt_succ hlen) (by rw [hshift]; exact hpath')
      · rintro ⟨u, v, huv, hpath, hisPath, htype, hmax⟩
        cases u with
        | nil =>
          -- the longer cut would not be allowed
          obtain ⟨u', v', rfl, hpath', hisPath', htype', _⟩ := ih.1 hlonger
          rw [hpath', hshift] at hisPath'
          rw [hmax (c :: u') v' rfl (Nat.zero_lt_succ _) hisPath'] at htype'
          cases htype'
        | cons d u =>
          rw [List.cons_append, List.cons.injEq] at huv
          obtain ⟨rfl, huv⟩ := huv
          have hsome : readFrom extension (c :: before) rest = some r := by
            refine ih.2 ⟨u, v, huv, by rw [hpath, hshift], hisPath, htype, ?_⟩
            intro u' v' huv' hlen hpath'
            refine hmax (c :: u') v' (by rw [huv']; rfl) (Nat.succ_lt_succ hlen) ?_
            rw [← hshift]
            exact hpath'
          rw [hlonger] at hsome
          exact Option.some.inj hsome
    | none =>
      have hnone := readFrom_eq_none_iff.1 hlonger
      have hend : ∀ u' v', c :: rest = u' ++ v' → 0 < u'.length →
          isPath extension (before.reverse ++ u') = true → typeAfterPath? v' = none := by
        intro u' v' huv hlen hpath'
        cases u' with
        | nil => cases hlen
        | cons d u' =>
          rw [List.cons_append, List.cons.injEq] at huv
          obtain ⟨rfl, huv⟩ := huv
          exact hnone u' v' huv (by rw [hshift]; exact hpath')
      simp only
      constructor
      · intro h
        split at h
        · next name hname =>
          split at h
          · next hpath =>
            cases h
            exact ⟨[], c :: rest, rfl, (List.append_nil _).symm, hpath, hname, hend⟩
          · cases h
        · cases h
      · rintro ⟨u, v, huv, hpath, hisPath, htype, _⟩
        cases u with
        | nil =>
          rw [List.nil_append] at huv
          subst huv
          rw [List.append_nil] at hpath
          rw [htype]
          simp only
          rw [← hpath, if_pos hisPath]
        | cons d u =>
          rw [hpath] at hisPath
          rw [hend _ v huv (Nat.zero_lt_succ _) hisPath] at htype
          cases htype

/-- A line is read by the cut with the longest path, line ends apart. -/
theorem read_eq_some_iff {extension line : Text} {r : Reference} :
    read extension line = some r ↔
      ∃ rest, Text.chomp line = r.path ++ rest ∧ isPath (bareExtension extension) r.path = true ∧
        typeAfterPath? rest = some r.type ∧
        ∀ path' rest', Text.chomp line = path' ++ rest' → r.path.length < path'.length →
          isPath (bareExtension extension) path' = true → typeAfterPath? rest' = none := by
  rw [read, readFrom_eq_some_iff]
  simp only [List.reverse_nil, List.nil_append]
  constructor
  · rintro ⟨u, v, hline, hpath, h⟩
    rw [← hpath] at hline h
    exact ⟨v, hline, h⟩
  · rintro ⟨rest, hline, h⟩
    exact ⟨r.path, rest, hline, rfl, h⟩

/-! ## The complaint occurs once -/

/-- What has no colon in it holds no start of the complaint. -/
theorem complaint_peel {x y before after : Text} (hx : colon ∉ x)
    (h : x ++ y = before ++ (complaint ++ after)) :
    ∃ rest, before = x ++ rest ∧ y = rest ++ (complaint ++ after) := by
  induction x generalizing before with
  | nil => exact ⟨before, rfl, h⟩
  | cons c x ih =>
    rw [List.mem_cons, not_or] at hx
    cases before with
    | nil =>
      rw [List.nil_append, List.cons_append] at h
      exact absurd (List.cons.inj h).1 (Ne.symm hx.1)
    | cons d before =>
      rw [List.cons_append, List.cons_append, List.cons.injEq] at h
      obtain ⟨rest, hbefore, hy⟩ := ih hx.2 h.2
      exact ⟨rest, by rw [hbefore, h.1, List.cons_append], hy⟩

/-- At a colon, the complaint starts only if its other words follow. -/
theorem complaint_step {y before after : Text} (hy : ¬complaint.tail <+: y)
    (h : colon :: y = before ++ (complaint ++ after)) :
    ∃ rest, before = colon :: rest ∧ y = rest ++ (complaint ++ after) := by
  cases before with
  | nil =>
    refine absurd ⟨after, ?_⟩ hy
    exact (List.cons.inj h).2.symm
  | cons d before =>
    rw [List.cons_append, List.cons.injEq] at h
    exact ⟨before, by rw [h.1], h.2⟩

theorem colon_not_mem_number {t : Text} (h : IsNumber t) : colon ∉ t :=
  fun hm => CodePoint.ne_colon_of_isDigit (h.2 _ hm) rfl

theorem colon_not_mem_name {t : Text} (h : IsName t) : colon ∉ t :=
  fun hm => CodePoint.ne_colon_of_isWord (h.2 _ hm) rfl

/-- A number does not start with the blank that follows the colon of the complaint. -/
theorem not_complaint_number {t y : Text} (h : IsNumber t) : ¬complaint.tail <+: t ++ y := by
  obtain ⟨hne, hdigits⟩ := h
  cases t with
  | nil => exact absurd rfl hne
  | cons c t =>
    rintro ⟨z, hz⟩
    have hblank : (' ' : CodePoint) = c := (List.cons.inj hz).1
    have hdigit := hdigits c (List.mem_cons_self ..)
    rw [← hblank] at hdigit
    exact absurd hdigit (by decide)

/-- Within the complaint no other one starts. -/
theorem complaint_start {y before after : Text}
    (h : complaint ++ y = before ++ (complaint ++ after)) :
    before = [] ∨ ∃ rest, y = rest ++ (complaint ++ after) := by
  cases before with
  | nil => exact Or.inl rfl
  | cons d before =>
    right
    have hsplit : complaint ++ y =
        colon :: ((" error" : Text) ++ colon :: ((" cannot find '" : Text) ++ y)) := rfl
    rw [hsplit, List.cons_append, List.cons.injEq] at h
    obtain ⟨u, _, hu⟩ := complaint_peel (by decide) h.2
    obtain ⟨v, _, hv⟩ := complaint_step (by rintro ⟨z, hz⟩; cases hz) hu
    obtain ⟨rest, _, hrest⟩ := complaint_peel (by decide) hv
    exact ⟨rest, hrest⟩

/-- What follows a path holds the complaint once, if the free text at the end does not hold it. -/
theorem complaint_unique {line column name rest before after : Text} (hline : IsNumber line)
    (hcolumn : IsNumber column) (hname : IsName name) (hrest : ¬complaint <:+: rest)
    (h : tail line column name rest = before ++ (complaint ++ after)) :
    before = colon :: (line ++ colon :: column) := by
  rw [tail] at h
  obtain ⟨b₁, hb₁, h⟩ := complaint_step (not_complaint_number hline) h
  obtain ⟨b₂, hb₂, h⟩ := complaint_peel (colon_not_mem_number hline) h
  obtain ⟨b₃, hb₃, h⟩ := complaint_step (not_complaint_number hcolumn) h
  obtain ⟨b₄, hb₄, h⟩ := complaint_peel (colon_not_mem_number hcolumn) h
  obtain hnil | ⟨u, hu⟩ := complaint_start h
  · rw [hb₁, hb₂, hb₃, hb₄, hnil, List.append_nil]
  · obtain ⟨v, _, hv⟩ := complaint_peel (colon_not_mem_name hname) hu
    obtain ⟨w, _, hw⟩ := complaint_peel (x := ending) (by decide) hv
    exact absurd ⟨w, after, by rw [hw, List.append_assoc]⟩ hrest

/-- A longer path has nothing to be followed by: its position would have to end where the position
of the shorter one ends, and that holds two colons only. -/
theorem typeAfterPath?_of_longer {line column name rest u v : Text} (hline : IsNumber line)
    (hcolumn : IsNumber column) (hname : IsName name) (hrest : ¬complaint <:+: rest) (hu : u ≠ [])
    (h : tail line column name rest = u ++ v) : typeAfterPath? v = none := by
  cases htype : typeAfterPath? v with
  | none => rfl
  | some other =>
    exfalso
    obtain ⟨line', column', rest', hline', hcolumn', hother, rfl⟩ :=
      typeAfterPath?_eq_some_iff.1 htype
    have hsplit : tail line column name rest =
        (u ++ colon :: (line' ++ colon :: column')) ++
          (complaint ++ (other ++ (ending ++ rest'))) := by
      rw [h, tail]
      simp only [List.append_assoc, List.cons_append]
    have hcut := complaint_unique hline hcolumn hname hrest hsplit
    have hcount := congrArg (List.count colon) hcut
    have hnone : ∀ {t : Text}, colon ∉ t → List.count colon t = 0 := List.count_eq_zero.2
    simp only [List.count_append, List.count_cons_self, hnone (colon_not_mem_number hline),
      hnone (colon_not_mem_number hcolumn), hnone (colon_not_mem_number hline'),
      hnone (colon_not_mem_number hcolumn')] at hcount
    cases u with
    | nil => exact hu rfl
    | cons c u =>
      have hc : c = colon := (List.cons.inj hcut).1
      rw [hc, List.count_cons_self] at hcount
      omega

/-- The cut that a line was written with is the one that it is read by. -/
theorem read_of_tail {extension path line column name rest : Text} (hline : IsNumber line)
    (hcolumn : IsNumber column) (hname : IsName name) (hrest : ¬complaint <:+: rest)
    (hpath : isPath (bareExtension extension) path = true)
    (hplain : Text.chomp (path ++ tail line column name rest) =
      path ++ tail line column name rest) :
    read extension (path ++ tail line column name rest) = some ⟨name, path⟩ := by
  refine read_eq_some_iff.2 ⟨tail line column name rest, hplain, hpath,
    typeAfterPath?_eq_some_iff.2 ⟨line, column, rest, hline, hcolumn, hname, rfl⟩, ?_⟩
  intro path' rest' hcut hlen _
  rw [hplain] at hcut
  obtain ⟨u, rfl, htail⟩ : ∃ u, path' = path ++ u ∧ tail line column name rest = u ++ rest' := by
    obtain ⟨u, hu, h⟩ | ⟨u, hu, _⟩ := List.append_eq_append_iff.1 hcut
    · exact ⟨u, hu, h⟩
    · rw [hu, List.length_append] at hlen
      omega
  refine typeAfterPath?_of_longer hline hcolumn hname hrest ?_ htail
  rintro rfl
  rw [List.append_nil] at hlen
  exact absurd hlen (Nat.lt_irrefl _)

end ImportRepair.ErrorLine

import ImportRepair.Proofs.Yaml.Words

/-!
# The tokens of plain lines

A document of lines that give a name to another one is read line by line: the first name of a line
may be a key, the colon after it shows that it is one, and the second name ends with its line. A
name that is too long for a key cannot be one.

Results:
* `Scan.HasRead.readToken_key`, `readToken_value`, `readToken_module`: the three steps of a line.
* `Scan.exists_hasRead`: lines are read one after another.
* `Token.scan_document`: the tokens of a document whose keys are not too long.
* `Token.scan_of_long`: what is read up to the first key that is too long.
-/

namespace ImportRepair.Yaml

/-! ## Lines -/

/-- A line that gives a name to another one. -/
def line (e : Text × Text) : Text := e.1 ++ (": " : Text) ++ e.2

/-- A document of such lines. The last one need not be ended. -/
def document (ended : Bool) : List (Text × Text) → Text
  | [] => []
  | e :: rest => line e ++ if rest.isEmpty && !ended then [] else Text.lf :: document ended rest

/-- What follows a line of a document. -/
def afterLine (ended : Bool) (rest : List (Text × Text)) : Text :=
  if rest.isEmpty && !ended then [] else Text.lf :: document ended rest

/-- A line whose two names are identifiers. -/
structure IsNamed (e : Text × Text) : Prop where
  key : e.1.isIdentifier = true
  value : e.2.isIdentifier = true

variable {ended : Bool} {e : Text × Text} {es rest : List (Text × Text)} {c : CodePoint}
  {t u : Text} {s : Scan}

theorem document_cons (ended : Bool) (e : Text × Text) (rest : List (Text × Text)) :
    document ended (e :: rest) = e.1 ++ 58 :: 32 :: (e.2 ++ afterLine ended rest) := by
  rw [document, line, List.append_assoc, List.append_assoc]
  rfl

/-! ## Characters of identifiers -/

/-- A character that neither ends a line nor stands between tokens. -/
def isInner (c : CodePoint) : Bool := !isBreak c && !isSpaceOrTab c && c.val ≠ 35 && c.val ≠ 0xFEFF

theorem isInner_of_isOfIdentifier (h : c.isOfIdentifier = true) : isInner c = true := by
  have hval := CodePoint.val_of_isOfIdentifier h
  simp only [isInner, isBreak, isSpaceOrTab, Bool.and_eq_true, Bool.not_eq_true',
    Bool.or_eq_false_iff, decide_eq_false_iff_not, decide_eq_true_eq]
  omega

namespace Scan

/-! ## Moving on -/

/-- Within a line the position goes on by the number of characters. -/
theorem foldl_step (h : ∀ c ∈ t, isBreak c = false ∧ c.val ≠ 0xFEFF) (s : Scan) :
    t.foldl step s = { s with index := s.index + t.length, column := s.column + t.length } := by
  induction t generalizing s with
  | nil => rfl
  | cons c t ih =>
    obtain ⟨⟨hbreak, hmark⟩, hrest⟩ := List.forall_mem_cons.1 h
    rw [List.foldl_cons, ih hrest, step, hbreak]
    simp only [Bool.false_eq_true, if_false, if_neg hmark, List.length_cons]
    congr 1 <;> omega

theorem moveTo_append (hrest : s.rest = t ++ u) (h : ∀ c ∈ t, isBreak c = false ∧ c.val ≠ 0xFEFF) :
    s.moveTo u =
      { s with rest := u, index := s.index + t.length, column := s.column + t.length } := by
  have htake : s.rest.take (s.rest.length - u.length) = t := by
    rw [hrest, List.length_append, Nat.add_sub_cancel, List.take_left]
  rw [moveTo, htake, foldl_step h]

theorem moveTo_nextLine (hrest : s.rest = t ++ Text.lf :: u)
    (h : ∀ c ∈ t, isBreak c = false ∧ c.val ≠ 0xFEFF) :
    s.moveTo u =
      { s with rest := u, index := s.index + t.length + 1, line := s.line + 1, column := 0 } := by
  have htake : s.rest.take (s.rest.length - u.length) = t ++ [Text.lf] := by
    rw [hrest, List.append_cons, List.length_append, Nat.add_sub_cancel, List.take_left]
  rw [moveTo, htake, List.foldl_append, foldl_step h]
  rfl

theorem forward_cons (hrest : s.rest = c :: u) (hc : isBreak c = false ∧ c.val ≠ 0xFEFF) :
    s.forward 1 = { s with rest := u, index := s.index + 1, column := s.column + 1 } := by
  rw [forward, hrest]
  exact moveTo_append (t := [c]) hrest (List.forall_mem_singleton.2 hc)

theorem moveTo_rest (s : Scan) : s.moveTo s.rest = s := by simp [moveTo]

/-! ## The next token -/

theorem skipGap_of_inner (h : isInner c = true) (t : Text) :
    skipGap false (c :: t) = (c :: t, false) := by
  simp only [isInner, Bool.and_eq_true, Bool.not_eq_true', isSpaceOrTab, Bool.or_eq_false_iff,
    decide_eq_true_eq, decide_eq_false_iff_not] at h
  obtain ⟨⟨⟨hbreak, hspace, -⟩, hcomment⟩, -⟩ := h
  rw [skipGap, hbreak]
  simp [hspace, hcomment]

/-- Without a byte order mark nothing but the gap is skipped. -/
theorem toNextToken_eq {broken : Bool} (hmark : s.rest.head? ≠ some (0xFEFF : CodePoint))
    (hgap : skipGap false s.rest = (u, broken)) :
    s.toNextToken = if broken && (s.moveTo u).flow = 0 then (s.moveTo u).allowKey true
      else s.moveTo u := by
  have hstart : ¬(s.index = 0 ∧ s.rest.head? = some (0xFEFF : CodePoint)) := fun h => hmark h.2
  rw [toNextToken, if_neg hstart, hgap]

theorem toNextToken_of_nil (h : s.rest = []) : s.toNextToken = s := by
  have hgap : skipGap false s.rest = (s.rest, false) := by
    rw [h]
    rfl
  have hnext := toNextToken_eq (by rw [h]; exact nofun) hgap
  rwa [moveTo_rest] at hnext

/-- The next token starts here. -/
theorem toNextToken_of_inner (hrest : s.rest = c :: t) (h : isInner c = true) :
    s.toNextToken = s := by
  have hmark : s.rest.head? ≠ some (0xFEFF : CodePoint) := by
    rw [hrest]
    rintro ⟨⟩
    revert h
    decide
  have hgap : skipGap false s.rest = (s.rest, false) := by rw [hrest, skipGap_of_inner h]
  have hnext := toNextToken_eq hmark hgap
  rwa [moveTo_rest] at hnext

/-- The next token starts after a space. -/
theorem toNextToken_of_space (hrest : s.rest = 32 :: c :: t) (h : isInner c = true) :
    s.toNextToken = { s with rest := c :: t, index := s.index + 1, column := s.column + 1 } := by
  have hmark : s.rest.head? ≠ some (0xFEFF : CodePoint) := by
    rw [hrest, List.head?_cons]
    decide
  have hgap : skipGap false s.rest = (c :: t, false) := by
    rw [hrest, ← skipGap_of_inner h t]
    rfl
  rw [toNextToken_eq hmark hgap,
    moveTo_append (t := [32]) hrest (List.forall_mem_singleton.2 (by decide))]
  rfl

/-- A token is read where it starts, in a text that goes on to its end. -/
theorem readToken_eq {s s' u : Scan} (hnext : s.toNextToken = u) (hu : u.cut = false)
    (hread : u.readHere = .ok s') (hs' : s'.cut = false) : s.readToken = .ok s' := by
  have hgo : ∀ v : Scan, v.cut = false → v.refuseCut = .ok v := by
    intro v hv
    rw [refuseCut, hv]
    rfl
  simp only [readToken, hnext, hgo u hu, hread, hgo s' hs', bind, Except.bind]

end Scan

/-! ## Plain scalars -/

/-- A run of a plain scalar goes on to the end of an identifier. -/
theorem plainRun_append (ht : ∀ c ∈ t, c.isOfIdentifier = true) (hu : plainRun false u = 0) :
    plainRun false (t ++ u) = t.length := by
  induction t with
  | nil => exact hu
  | cons c t ih =>
    obtain ⟨hc, ht⟩ := List.forall_mem_cons.1 ht
    have hval := CodePoint.val_of_isOfIdentifier hc
    have hcolon : ¬c.val = 58 := by omega
    have hblank : (isBreak c || isSpaceOrTab c) = false := by
      simp only [isBreak, isSpaceOrTab, Bool.or_eq_false_iff, decide_eq_false_iff_not]
      omega
    rw [List.cons_append, plainRun, hblank]
    simp [hcolon, ih ht]

/-- An identifier that ends before a space, or with its line, is a plain scalar. -/
theorem readPlain_append {indent : Int} (ht : ∀ c ∈ t, c.isOfIdentifier = true)
    (hu : plainRun false u = 0)
    (hends : (plainSpace u).text = none ∨ (plainSpace u).broken = true ∧
      ((plainSpace u).column : Int) < indent) :
    readPlain false indent (t ++ u) = (t, (plainSpace u).rest, (plainSpace u).broken) := by
  have hrun : (t ++ u).take (plainRun false (t ++ u)) = t := by
    rw [plainRun_append ht hu, List.take_left]
  rw [readPlain, plainFrom]
  simp only [hrun, List.drop_left]
  split
  · rfl
  · next hspace =>
    rw [hspace] at hends
    obtain hnone | ⟨hbroken, hcolumn⟩ := hends
    · cases hnone
    · simp [hbroken, hcolumn]

/-- A name before the colon that makes it a key. -/
theorem readPlain_key (ht : t.isIdentifier = true) (indent : Int) (u : Text) :
    readPlain false indent (t ++ 58 :: 32 :: u) = (t, 58 :: 32 :: u, false) :=
  readPlain_append (Text.isIdentifier.forall_mem ht) (by rfl) (Or.inl (by rfl))

/-- The markers of documents start with hyphens and points. -/
theorem atSeparator_cons (hhyphen : c.val ≠ 45) (hpoint : c.val ≠ 46) (t : Text) :
    atSeparator (c :: t) = false := by
  have hmarker : ∀ (d : CodePoint) (ds : Text), c.val ≠ d.val →
      List.isPrefixOf (d :: ds) (c :: t) = false := by
    intro d ds hne
    have hbeq : (d == c) = false := by
      rw [beq_eq_false_iff_ne]
      rintro rfl
      exact hne rfl
    rw [List.isPrefixOf_cons_cons, hbeq, Bool.false_and]
  have hstart : (Text.ofString "---").isPrefixOf (c :: t) = false := hmarker 45 [45, 45] hhyphen
  have hend : (Text.ofString "...").isPrefixOf (c :: t) = false := hmarker 46 [46, 46] hpoint
  rw [atSeparator, atMarker, atMarker, hstart, hend]
  rfl

/-- What follows a line of names: nothing, or another line. -/
theorem document_eq (ended : Bool) (hnamed : ∀ e ∈ rest, IsNamed e) :
    document ended rest = [] ∨ ∃ c u, document ended rest = c :: u ∧ c.startsIdentifier = true := by
  cases rest with
  | nil => exact Or.inl rfl
  | cons e rest =>
    obtain ⟨c, u, hkey, hc, -⟩ :=
      Text.isIdentifier.exists_cons (hnamed e (List.mem_cons_self ..)).key
    exact Or.inr ⟨c, _, by rw [document_cons, hkey]; rfl, hc⟩

/-- A name at the end of a line. -/
theorem readPlain_value (ht : t.isIdentifier = true) (hnamed : ∀ e ∈ rest, IsNamed e) :
    readPlain false 1 (t ++ afterLine ended rest) =
      (t, document ended rest, !(rest.isEmpty && !ended)) := by
  have hall := Text.isIdentifier.forall_mem ht
  rw [afterLine]
  split
  · next hlast =>
    rw [readPlain_append hall (by rfl) (Or.inl (by rfl)), hlast]
    obtain rfl : rest = [] := by simp_all
    rfl
  next hmore =>
  have hbreaks : plainBreaks 0 (document ended rest) = some ([], 0, document ended rest) := by
    obtain hnil | ⟨c, u, hcons, hc⟩ := document_eq ended hnamed
    · rw [hnil]
      rfl
    · have hval := CodePoint.val_of_startsIdentifier hc
      have hspace : ¬c.val = 32 := by omega
      have hbreak : isBreak c = false := by
        simp only [isBreak, Bool.or_eq_false_iff, decide_eq_false_iff_not]
        omega
      simp [hcons, plainBreaks,
        atSeparator_cons (show c.val ≠ 45 by omega) (show c.val ≠ 46 by omega), hspace, hbreak]
  have hspace : plainSpace (Text.lf :: document ended rest) =
      ⟨some [32], true, 0, document ended rest⟩ := by
    have hbreak : isBreak Text.lf = true := by decide
    have hblank : ¬(Text.lf : CodePoint).val = 32 := by decide
    simp [plainSpace, hbreak, hblank, hbreaks, foldBreaks,
      show breakValue Text.lf = 10 from by decide]
  rw [readPlain_append hall (by rfl)
    (Or.inr (by rw [hspace]; exact ⟨rfl, Int.zero_lt_one⟩)), hspace]
  simp [hmore]

/-! ## Steps -/

namespace Scan

/-- Between the lines of a document no key is pending that could be stale. -/
theorem dropStale_of_pending (h : s.pending = []) : s.dropStale = .ok s := by
  obtain ⟨⟩ := s
  cases h
  rfl

/-- A lone pending key is kept, forgotten, or missed. -/
theorem dropStale_of_singleton {k : PendingKey} (h : s.pending = [(0, k)]) :
    s.dropStale =
      if s.isStale k then
        if k.required then .error .malformed else .ok { s with pending := [] }
      else .ok s := by
  obtain ⟨⟩ := s
  cases h
  simp only [dropStale, List.any_cons, List.any_nil, Bool.or_false, List.filter_cons,
    List.filter_nil]
  cases isStale _ k <;> cases k.required <;> rfl

/-- No block ends at a line that is not indented less. -/
theorem unwind_of_le (h : s.indent ≤ s.column) : s.unwind s.column = s := by
  have hends : blocksEnding s.column s.indent s.outerIndents = (0, s.indent, s.outerIndents) := by
    cases s.outerIndents with
    | nil => rfl
    | cons outer rest => rw [blocksEnding, if_neg (by omega)]
  rw [unwind, hends]
  simp

/-- An identifier is read as a plain scalar. -/
theorem readHere_of_startsIdentifier (hrest : s.rest = c :: t) (hc : c.startsIdentifier = true)
    (hflow : s.flow = 0) (hpending : s.pending = []) (hindent : s.indent ≤ s.column) :
    s.readHere = s.readPlainScalar := by
  have hne : ∀ d : CodePoint, d.startsIdentifier = false → decide (c = d) = false := by
    intro d hd
    rw [decide_eq_false_iff_not]
    rintro rfl
    rw [hc] at hd
    cases hd
  have hval := CodePoint.val_of_startsIdentifier hc
  have hmarkers := atSeparator_cons (show c.val ≠ 45 by omega) (show c.val ≠ 46 by omega) t
  simp only [atSeparator, Bool.or_eq_false_iff] at hmarkers
  have hplain : startsPlain false (c :: t) = true := by
    have hindicator : atOneOf "-?:,[]\x7b\x7d#&*!|>'\"%@\x60" [c] = false := by
      have hall : (Text.ofString "-?:,[]\x7b\x7d#&*!|>'\"%@\x60").all
          (fun d => !d.startsIdentifier) = true := by
        decide
      rw [← Bool.not_eq_true]
      intro hmem
      have hother := List.all_eq_true.1 hall c (List.contains_iff_mem.1 hmem)
      rw [hc] at hother
      cases hother
    have hblank : (isBreak c || isSpaceOrTab c) = false := by
      simp only [isBreak, isSpaceOrTab, Bool.or_eq_false_iff, decide_eq_false_iff_not]
      omega
    rw [startsPlain, hblank, hindicator]
    rfl
  simp (disch := decide) only [readHere, dropStale_of_pending hpending, bind, Except.bind,
    unwind_of_le hindent, hrest, hflow, hmarkers, hne, hplain, Bool.and_false, Bool.false_and,
    Bool.false_eq_true, if_false, if_true, ne_eq, not_true_eq_false, decide_false]

/-- A colon before a space ends a key, if what is forgotten before it leaves the place as it is. -/
theorem readHere_of_colon {v : Scan} (hdrop : s.dropStale = .ok v) (hrest : v.rest = 58 :: 32 :: t)
    (hflow : v.flow = 0) (hindent : v.indent ≤ v.column) : s.readHere = v.readValue := by
  have hne : ∀ d : CodePoint, d ≠ 58 → decide ((58 : CodePoint) = d) = false := by
    intro d hd
    rw [decide_eq_false_iff_not]
    exact hd.symm
  have hcolon : decide ((58 : CodePoint) = CodePoint.ofChar ':') = true := by decide
  have hblank : atBlank (32 :: t) = true := by rfl
  have hmarkers : atSeparator (58 :: 32 :: t) = false := atSeparator_cons (by decide) (by decide) _
  simp only [atSeparator, Bool.or_eq_false_iff] at hmarkers
  simp (disch := decide) only [readHere, hdrop, bind, Except.bind, unwind_of_le hindent, hrest,
    hflow, hmarkers, hne, hcolon, hblank, Bool.and_false, Bool.false_and, Bool.and_true,
    Bool.or_true, Bool.false_eq_true, if_false, if_true, ne_eq, not_true_eq_false, decide_false]

end Scan

/-! ## Tokens of lines -/

/-- The tokens of a line. -/
def Token.ofLine (e : Text × Text) : List Token :=
  [.key, .scalar true e.1, .value, .scalar true e.2]

/-- The tokens of lines: they start a block mapping. -/
def Token.ofLines (es : List (Text × Text)) : List Token :=
  if es.isEmpty then [] else .blockMappingStart :: es.flatMap ofLine

theorem Token.ofLines_append (es : List (Text × Text)) (e : Text × Text) :
    ofLines (es ++ [e]) = ofLines es ++ (if es.isEmpty then [.blockMappingStart] else []) ++
      ofLine e := by
  cases es with
  | nil => rfl
  | cons first es => simp [ofLines]

namespace Scan

/-! ### Keys that are put in -/

variable {marks : List KeyMark} {mark : KeyMark} {number : Nat} {tokens : List Token}

theorem withKeys_append (marks : List KeyMark) (number : Nat) (tokens more : List Token) :
    withKeys marks number (tokens ++ more) =
      withKeys marks number tokens ++ withKeys marks (number + tokens.length) more := by
  induction tokens generalizing number with
  | nil => rfl
  | cons token tokens ih =>
    rw [List.cons_append, withKeys, withKeys, ih, List.length_cons, ← Nat.add_assoc,
      Nat.add_right_comm]
    simp

/-- No keys are put in behind the last mark. -/
theorem withKeys_of_lt (h : ∀ mark ∈ marks, mark.number < number) (tokens : List Token) :
    withKeys marks number tokens = tokens := by
  induction tokens generalizing number with
  | nil => rfl
  | cons token tokens ih =>
    have hnone : marks.find? (·.number = number) = none := by
      rw [List.find?_eq_none]
      intro mark hmark heq
      have hlt := h mark hmark
      rw [of_decide_eq_true heq] at hlt
      exact Nat.lt_irrefl _ hlt
    rw [withKeys, hnone, ih fun mark hmark => Nat.lt_succ_of_lt (h mark hmark)]
    rfl

/-- A mark behind the tokens puts nothing in. -/
theorem withKeys_cons (h : number + tokens.length ≤ mark.number) :
    withKeys (mark :: marks) number tokens = withKeys marks number tokens := by
  induction tokens generalizing number with
  | nil => rfl
  | cons token tokens ih =>
    rw [List.length_cons] at h
    have hnot : ¬mark.number = number := by omega
    rw [withKeys, withKeys, ih (by omega), List.find?_cons_of_neg (by simpa using hnot)]

/-- A scan at the end of some lines, before the rest of the text. -/
structure HasRead (s : Scan) (es : List (Text × Text)) (rest : Text) : Prop where
  ahead : s.rest = rest
  cut : s.cut = false
  flow : s.flow = 0
  pending : s.pending = []
  /-- A line starts where the text goes on. -/
  column : rest ≠ [] → s.column = 0 ∧ s.keyAllowed = true
  /-- The block mapping is open once a line is read. -/
  indents : (s.indent, s.outerIndents) = if es.isEmpty then (-1, []) else (0, [-1])
  count : s.count = s.tokens.length
  marks : ∀ mark ∈ s.marks, mark.number < s.count
  tokens : withKeys s.marks 0 s.tokens.reverse = Token.ofLines es

/-- A key that may start here. -/
def keyHere (s : Scan) : PendingKey :=
  ⟨s.count, s.indent = (s.column : Int), s.index, s.line, s.column⟩

/-- The scan after the first name of a line, which may be a key. -/
def atColon (key rest : Text) (s : Scan) : Scan :=
  { s with
    rest := 58 :: 32 :: rest
    index := s.index + key.length
    column := s.column + key.length
    tokens := .scalar true key :: s.tokens
    count := s.count + 1
    keyAllowed := false
    pending := [(0, s.keyHere)] }

/-- The scan after the colon that makes a name a key. -/
def afterColon (key rest : Text) (s : Scan) : Scan :=
  { s with
    rest := 32 :: rest
    index := s.index + key.length + 1
    column := s.column + key.length + 1
    tokens := .value :: .scalar true key :: s.tokens
    count := s.count + 2
    marks := ⟨s.count, s.indent < (s.column : Int)⟩ :: s.marks
    indent := 0
    outerIndents := [-1]
    keyAllowed := false }

/-- The scan at the second name of a line, which the rest of the text starts with. -/
def atSecond (key rest : Text) (s : Scan) : Scan :=
  { s.afterColon key rest with
    rest := rest
    index := s.index + key.length + 2
    column := s.column + key.length + 2 }

theorem hasRead_start (t : Text) : (start false t).HasRead [] t :=
  ⟨rfl, rfl, rfl, rfl, fun _ => ⟨rfl, rfl⟩, rfl, rfl, nofun, rfl⟩

theorem HasRead.indent_le (h : s.HasRead es u) : s.indent ≤ 0 := by
  have hindents := congrArg Prod.fst h.indents
  split at hindents <;> simp only at hindents <;> omega

/-- No character of an identifier moves the position in another way than by its width. -/
theorem isBreak_of_isOfIdentifier (h : c.isOfIdentifier = true) :
    isBreak c = false ∧ c.val ≠ 0xFEFF := by
  have hinner := isInner_of_isOfIdentifier h
  simp only [isInner, Bool.and_eq_true, Bool.not_eq_true', decide_eq_true_eq] at hinner
  exact ⟨hinner.1.1.1, hinner.2⟩

/-- A plain scalar that is no key, since none may start here. -/
theorem readPlainScalar_of_not_keyAllowed {rest : Text} {broken : Bool} (hflow : s.flow = 0)
    (hallowed : s.keyAllowed = false)
    (hread : readPlain false (s.indent + 1) s.rest = (t, rest, broken)) :
    s.readPlainScalar = .ok (((s.allowKey broken).moveTo rest).push (.scalar true t)) := by
  have hsave : s.savePending = .ok s := by simp [savePending, hallowed, pure, Except.pure]
  simp [readPlainScalar, hflow, hread, hsave, bind, Except.bind, pure, Except.pure]

/-- A plain scalar that may be a key. -/
theorem readPlainScalar_of_keyAllowed {rest : Text} {broken : Bool} (hflow : s.flow = 0)
    (hpending : s.pending = []) (hallowed : s.keyAllowed = true)
    (hread : readPlain false (s.indent + 1) s.rest = (t, rest, broken)) :
    s.readPlainScalar =
      .ok ((({ s with pending := [(0, s.keyHere)] }.allowKey broken).moveTo rest).push
      (.scalar true t)) := by
  have hsave : s.savePending = .ok { s with pending := [(0, s.keyHere)] } := by
    simp [savePending, dropPending, hallowed, hpending, hflow, keyHere, bind, Except.bind,
      pure, Except.pure]
  simp [readPlainScalar, hflow, hread, hsave, bind, Except.bind, pure, Except.pure]

/-- A name is too long for a key if it has more characters than one may have. -/
theorem isStale_atColon (key rest : Text) (s : Scan) :
    (s.atColon key rest).isStale s.keyHere = decide (maxKeyLength < key.length) := by
  simp [isStale, atColon, keyHere]

/-- A line starts at the first column, where the block mapping of the lines is, or starts. -/
theorem HasRead.addIndent {v : Scan} (h : s.HasRead es u) (hflow : v.flow = 0)
    (hindent : v.indent = s.indent) (houter : v.outerIndents = s.outerIndents) :
    v.addIndent 0 = { v with indent := 0, outerIndents := [-1] } := by
  have hindents := h.indents
  rw [← hindent, ← houter] at hindents
  obtain ⟨⟩ := v
  cases hflow
  cases hempty : es.isEmpty <;> rw [hempty] at hindents <;> cases hindents <;> rfl

/-- Before a line a key may start, in the first column. -/
theorem HasRead.starts (h : s.HasRead es (document ended (e :: rest))) :
    s.column = 0 ∧ s.keyAllowed = true := by
  refine h.column ?_
  rw [document_cons]
  simp

/-- Behind a name and its line there is the next line, in the first column, or nothing. -/
theorem moveTo_afterLine (hrest : s.rest = t ++ afterLine ended rest)
    (h : ∀ c ∈ t, isBreak c = false ∧ c.val ≠ 0xFEFF) :
    ∃ index line column,
      s.moveTo (document ended rest) = { s with rest := document ended rest, index, line, column } ∧
      (document ended rest ≠ [] → column = 0 ∧ (!(rest.isEmpty && !ended)) = true) := by
  rw [afterLine] at hrest
  split at hrest
  · next hlast =>
    obtain rfl : rest = [] := by
      rw [Bool.and_eq_true] at hlast
      exact List.isEmpty_iff.1 hlast.1
    exact ⟨_, _, _, moveTo_append hrest h, fun hne => absurd rfl hne⟩
  · next hmore =>
    rw [Bool.not_eq_true, ← Bool.not_eq_true'] at hmore
    exact ⟨_, _, _, moveTo_nextLine hrest h, fun _ => ⟨rfl, hmore⟩⟩

section Lines

variable (h : s.HasRead es (document ended (e :: rest)))
include h

/-- The first name of a line is read. -/
theorem HasRead.readToken_key (he : IsNamed e) :
    s.readToken = .ok (s.atColon e.1 (e.2 ++ afterLine ended rest)) := by
  obtain ⟨c, t, hkey, hc, hall⟩ := Text.isIdentifier.exists_cons he.key
  have hrest : s.rest = e.1 ++ 58 :: 32 :: (e.2 ++ afterLine ended rest) :=
    h.ahead.trans (document_cons ended e rest)
  have hcons : s.rest = c :: (t ++ 58 :: 32 :: (e.2 ++ afterLine ended rest)) := by
    rw [hrest, hkey]; rfl
  obtain ⟨hcolumn, hallowed⟩ := h.starts
  have hinner := isInner_of_isOfIdentifier (hall c (by rw [hkey]; exact List.mem_cons_self ..))
  refine readToken_eq (toNextToken_of_inner hcons hinner) h.cut ?_ h.cut
  have hread : readPlain false (s.indent + 1) s.rest =
      (e.1, 58 :: 32 :: (e.2 ++ afterLine ended rest), false) := by
    rw [hrest, readPlain_key he.key]
  rw [readHere_of_startsIdentifier hcons hc h.flow h.pending (by rw [hcolumn]; exact h.indent_le),
    readPlainScalar_of_keyAllowed h.flow h.pending hallowed hread, moveTo_append (t := e.1)]
  · rfl
  · exact hrest
  · exact fun d hd => isBreak_of_isOfIdentifier (hall d hd)

/-- The colon after it shows that it is a key, unless it is too long. -/
theorem HasRead.readToken_value (hlength : e.1.length ≤ maxKeyLength) :
    (s.atColon e.1 (e.2 ++ afterLine ended rest)).readToken =
      .ok (s.afterColon e.1 (e.2 ++ afterLine ended rest)) := by
  have hindent := h.indent_le
  have hdrop := dropStale_of_singleton (s := s.atColon e.1 (e.2 ++ afterLine ended rest)) rfl
  rw [isStale_atColon, decide_eq_false (Nat.not_lt.2 hlength)] at hdrop
  have hcolumn := h.starts.1
  have hkey : s.keyHere.column = 0 := hcolumn
  refine readToken_eq (toNextToken_of_inner (c := 58) rfl (by decide)) h.cut ?_ h.cut
  rw [readHere_of_colon hdrop rfl h.flow (by simp only [atColon]; omega)]
  have hpending : (s.atColon e.1 (e.2 ++ afterLine ended rest)).pending.lookup
      (s.atColon e.1 (e.2 ++ afterLine ended rest)).flow = some s.keyHere := by
    simp [atColon, h.flow]
  simp only [readValue, hpending, pure, Except.pure]
  rw [hkey, h.addIndent, forward_cons (c := 58) (u := 32 :: (e.2 ++ afterLine ended rest))]
  · simp [atColon, afterColon, keyHere, push, allowKey, opensBlock, h.flow, h.pending, hcolumn]
  · rfl
  · decide
  · exact h.flow
  · rfl
  · rfl

/-- A key that is too long breaks the rules of the format, be it required or not. -/
theorem HasRead.readToken_value_of_long (hlength : maxKeyLength < e.1.length) :
    (s.atColon e.1 (e.2 ++ afterLine ended rest)).readToken = .error .malformed := by
  have hindent := h.indent_le
  have hdrop := dropStale_of_singleton (s := s.atColon e.1 (e.2 ++ afterLine ended rest)) rfl
  rw [isStale_atColon, decide_eq_true hlength, if_pos rfl] at hdrop
  have hread : (s.atColon e.1 (e.2 ++ afterLine ended rest)).readHere = .error .malformed := by
    split at hdrop
    · rw [readHere, hdrop]
      rfl
    · rw [readHere_of_colon hdrop rfl h.flow (by simp only [atColon]; omega)]
      simp [readValue, atColon, h.flow, throw, throwThe, MonadExceptOf.throw, bind, Except.bind]
  have hgo : (s.atColon e.1 (e.2 ++ afterLine ended rest)).refuseCut =
      .ok (s.atColon e.1 (e.2 ++ afterLine ended rest)) := by
    simp [refuseCut, atColon]
  have hnext : (s.atColon e.1 (e.2 ++ afterLine ended rest)).toNextToken =
      s.atColon e.1 (e.2 ++ afterLine ended rest) := toNextToken_of_inner (c := 58) rfl (by decide)
  simp only [readToken, hnext, hgo, hread, bind, Except.bind]

/-- The tokens of a line, with what starts its key, come behind those of the lines before it. -/
theorem HasRead.withKeys_line :
    withKeys (⟨s.count, s.indent < (s.column : Int)⟩ :: s.marks) 0
      (.scalar true e.2 :: .value :: .scalar true e.1 :: s.tokens).reverse =
      Token.ofLines (es ++ [e]) := by
  have hlength : s.tokens.reverse.length = s.count := by rw [List.length_reverse, h.count]
  have hbefore : withKeys (⟨s.count, s.indent < (s.column : Int)⟩ :: s.marks) 0 s.tokens.reverse =
      Token.ofLines es := by
    rw [withKeys_cons (by rw [hlength, Nat.zero_add]), h.tokens]
  have hbehind : ∀ mark ∈ (⟨s.count, s.indent < (s.column : Int)⟩ :: s.marks : List KeyMark),
      mark.number < s.count + 1 := by
    intro mark hmark
    obtain rfl | hmem := List.mem_cons.1 hmark
    · exact Nat.lt_succ_self _
    · exact Nat.lt_succ_of_lt (h.marks mark hmem)
  have hopens : decide (s.indent < (s.column : Int)) = es.isEmpty := by
    have hindents := congrArg Prod.fst h.indents
    rw [h.starts.1]
    cases hempty : es.isEmpty <;> rw [hempty] at hindents <;> simp only at hindents <;>
      rw [hindents] <;> rfl
  have hreverse : (.scalar true e.2 :: .value :: .scalar true e.1 :: s.tokens).reverse =
      s.tokens.reverse ++ [.scalar true e.1, .value, .scalar true e.2] := by simp
  rw [hreverse, withKeys_append, hbefore, hlength, Nat.zero_add, withKeys, withKeys_of_lt hbehind,
    List.find?_cons_of_pos (by simp), Token.ofLines_append, List.append_assoc, hopens]
  cases es.isEmpty <;> rfl

/-- The second name of a line ends with it. -/
theorem HasRead.readToken_module (he : IsNamed e) (hnamed : ∀ e ∈ rest, IsNamed e) :
    ∃ s', (s.afterColon e.1 (e.2 ++ afterLine ended rest)).readToken = .ok s' ∧
      s'.tokens = .scalar true e.2 :: .value :: .scalar true e.1 :: s.tokens ∧
      s'.HasRead (es ++ [e]) (document ended rest) := by
  obtain ⟨c, t, hvalue, hc, hall⟩ := Text.isIdentifier.exists_cons he.value
  have hinner := isInner_of_isOfIdentifier (hall c (by rw [hvalue]; exact List.mem_cons_self ..))
  have hcons : e.2 ++ afterLine ended rest = c :: (t ++ afterLine ended rest) := by rw [hvalue]; rfl
  have hnext : (s.afterColon e.1 (e.2 ++ afterLine ended rest)).toNextToken =
      s.atSecond e.1 (e.2 ++ afterLine ended rest) := by
    rw [toNextToken_of_space (congrArg (32 :: ·) hcons) hinner, atSecond, hcons]
    rfl
  have hhere : (s.atSecond e.1 (e.2 ++ afterLine ended rest)).readHere =
      .ok ((((s.atSecond e.1 (e.2 ++ afterLine ended rest)).allowKey
        (!(rest.isEmpty && !ended))).moveTo (document ended rest)).push (.scalar true e.2)) := by
    refine (readHere_of_startsIdentifier (s := s.atSecond e.1 _)
      hcons hc h.flow h.pending ?_).trans ?_
    · exact Int.natCast_nonneg _
    · exact readPlainScalar_of_not_keyAllowed h.flow rfl (readPlain_value he.value hnamed)
  obtain ⟨index, line, column, hmove, hcolumn⟩ := moveTo_afterLine
    (s := (s.atSecond e.1 (e.2 ++ afterLine ended rest)).allowKey (!(rest.isEmpty && !ended))) rfl
    fun d hd => isBreak_of_isOfIdentifier (hall d hd)
  rw [hmove] at hhere
  refine ⟨_, readToken_eq hnext h.cut hhere h.cut, rfl, rfl, h.cut, h.flow, h.pending,
    hcolumn, ?_, ?_, ?_, h.withKeys_line⟩
  · simp [allowKey, push, atSecond, afterColon]
  · simp [push, allowKey, atSecond, afterColon, h.count]
  · intro mark hmark
    show mark.number < s.count + 2 + 1
    obtain rfl | hmem := List.mem_cons.1 hmark
    · exact Nat.lt_add_of_pos_right (by decide : 0 < 3)
    · exact Nat.lt_add_right 3 (h.marks mark hmem)

end Lines

/-! ## Runs -/

theorem readAll_succ {s s' : Scan} {token : Token} {tokens : List Token}
    (hread : s.readToken = .ok s') (htokens : s'.tokens = token :: tokens)
    (hmore : token ≠ .streamEnd) (steps : Nat) :
    s.readAll (steps + 1) = s'.readAll steps := by
  have hhead : s'.tokens.head? ≠ some .streamEnd := by
    rw [htokens]
    rintro ⟨⟩
    exact hmore rfl
  rw [readAll, hread]
  simp only [if_neg hhead]

/-- Some lines are read in three steps each. -/
theorem HasRead.readAll_lines {lines : List (Text × Text)}
    (h : s.HasRead es (document ended (lines ++ rest))) (hnamed : ∀ e ∈ lines ++ rest, IsNamed e)
    (hshort : ∀ e ∈ lines, e.1.length ≤ maxKeyLength) :
    ∃ s' : Scan, s'.HasRead (es ++ lines) (document ended rest) ∧
      ∀ steps, s.readAll (steps + 3 * lines.length) = s'.readAll steps := by
  induction lines generalizing s es with
  | nil => exact ⟨s, by rwa [List.append_nil], fun _ => rfl⟩
  | cons e lines ih =>
    obtain ⟨he, hnamed⟩ := List.forall_mem_cons.1 hnamed
    obtain ⟨hlength, hshort⟩ := List.forall_mem_cons.1 hshort
    obtain ⟨v, hmodule, htokens, hv⟩ := HasRead.readToken_module h he hnamed
    obtain ⟨s', hs', hrun⟩ := ih hv hnamed hshort
    refine ⟨s', by rwa [List.append_assoc] at hs', fun steps => ?_⟩
    rw [List.length_cons, Nat.mul_succ, ← Nat.add_assoc,
      readAll_succ (HasRead.readToken_key h he) rfl nofun,
      readAll_succ (HasRead.readToken_value h hlength) rfl nofun,
      readAll_succ hmodule htokens nofun, hrun]

/-- From the start of a document the lines before some place are read. -/
theorem exists_hasRead (ended : Bool) (hnamed : ∀ e ∈ es ++ rest, IsNamed e)
    (hshort : ∀ e ∈ es, e.1.length ≤ maxKeyLength) :
    ∃ s : Scan, s.HasRead es (document ended rest) ∧
      ∀ steps, (start false (document ended (es ++ rest))).readAll (steps + 3 * es.length) =
        s.readAll steps :=
  (hasRead_start (document ended (es ++ rest))).readAll_lines hnamed hshort

/-- Behind the lines no more keys are put in. -/
theorem HasRead.withKeys_append (h : s.HasRead es u) (more : List Token) :
    withKeys s.marks 0 (s.tokens.reverse ++ more) = Token.ofLines es ++ more := by
  have hbehind : ∀ mark ∈ s.marks, mark.number < 0 + s.tokens.reverse.length := by
    rw [List.length_reverse, ← h.count, Nat.zero_add]
    exact h.marks
  rw [Scan.withKeys_append, h.tokens, withKeys_of_lt hbehind]

/-- The end of the tokens of lines: their block mapping ends. -/
def endOfLines (es : List (Text × Text)) : List Token :=
  if es.isEmpty then [.streamEnd] else [.blockEnd, .streamEnd]

theorem readEnd_eq (h : (s.unwind (-1)).pending = []) :
    s.readEnd = .ok (({ s.unwind (-1) with pending := [] }.allowKey false).push .streamEnd) := by
  rw [readEnd, dropPending, h]
  rfl

/-- At the end of the text the block mapping of the lines ends. -/
theorem HasRead.unwind_end (h : s.HasRead es u) :
    s.unwind (-1) = { s with
      indent := -1
      outerIndents := []
      tokens := List.replicate (if es.isEmpty then 0 else 1) Token.blockEnd ++ s.tokens
      count := s.count + if es.isEmpty then 0 else 1 } := by
  have hends : blocksEnding (-1) s.indent s.outerIndents =
      (if es.isEmpty then 0 else 1, -1, []) := by
    obtain ⟨hindent, houter⟩ := Prod.mk.inj h.indents
    rw [hindent, houter]
    cases es.isEmpty <;> rfl
  rw [unwind, if_neg (by simp [h.flow]), hends]

/-- At the end of the text the tokens are those of the lines. -/
theorem HasRead.readToken_end (h : s.HasRead es []) :
    ∃ s', s.readToken = .ok s' ∧ s'.marks = s.marks ∧ s'.count = s'.tokens.length ∧
      s'.tokens = (endOfLines es).reverse ++ s.tokens := by
  have hread : s.readHere = s.readEnd := by
    have hunwind := unwind_of_le (s := s) (by have := h.indent_le; omega)
    simp only [readHere, dropStale_of_pending h.pending, bind, Except.bind, hunwind, h.ahead]
  have hend := readEnd_eq (s := s) (by rw [h.unwind_end]; exact h.pending)
  rw [h.unwind_end] at hend
  refine ⟨_, readToken_eq (toNextToken_of_nil h.ahead) h.cut (hread.trans hend) h.cut, rfl, ?_, ?_⟩
  · simp [push, allowKey, h.count, Nat.add_comm]
  · rw [endOfLines]
    cases es.isEmpty <;> rfl

end Scan

/-- Each line takes more characters than steps. -/
theorem length_document (ended : Bool) (hnamed : ∀ e ∈ es, IsNamed e) :
    3 * es.length ≤ (document ended es).length := by
  induction es with
  | nil => exact Nat.zero_le _
  | cons e es ih =>
    obtain ⟨he, hnamed⟩ := List.forall_mem_cons.1 hnamed
    obtain ⟨c, t, hkey, -⟩ := Text.isIdentifier.exists_cons he.key
    have hrest : (document ended es).length ≤ (afterLine ended es).length := by
      rw [afterLine]
      split
      · next hlast =>
        rw [Bool.and_eq_true] at hlast
        rw [List.isEmpty_iff.1 hlast.1]
        exact Nat.le_refl _
      · exact Nat.le_succ _
    have hshorter := ih hnamed
    rw [document_cons, hkey]
    simp only [List.length_append, List.length_cons]
    omega

/-- The tokens of a document whose keys are not too long. -/
theorem Token.scan_document (ended : Bool) (hnamed : ∀ e ∈ es, IsNamed e)
    (hshort : ∀ e ∈ es, e.1.length ≤ Scan.maxKeyLength) :
    scan false (document ended es) = (ofLines es ++ Scan.endOfLines es, none) := by
  obtain ⟨s, hs, hrun⟩ := Scan.exists_hasRead ended (by rwa [List.append_nil]) hshort
  rw [List.append_nil] at hrun
  obtain ⟨s', hread, hmarks, hcount, htokens⟩ := hs.readToken_end
  have hsteps := length_document ended hnamed
  obtain ⟨steps, hlength⟩ : ∃ steps, (document ended es).length + 2 = steps + 1 + 3 * es.length :=
    ⟨(document ended es).length + 1 - 3 * es.length, by omega⟩
  have hall : (Scan.start false (document ended es)).readAll ((document ended es).length + 2) =
      (s', none) := by
    have hhead : s'.tokens.head? = some .streamEnd := by
      rw [htokens, Scan.endOfLines]
      split <;> rfl
    rw [hlength, hrun, Scan.readAll, hread]
    simp only [hhead, if_true]
  have hmarked : Scan.withKeys s'.marks 0 s'.tokens.reverse = ofLines es ++ Scan.endOfLines es := by
    rw [htokens, hmarks, List.reverse_append, List.reverse_reverse, hs.withKeys_append]
  have htake : s'.tokens.reverse.take s'.count = s'.tokens.reverse := by
    rw [hcount, ← List.length_reverse, List.take_length]
  rw [scan, hall]
  simp only [Option.isSome_none, Bool.false_eq_true, if_false, htake, hmarked]

/-- Up to the first key that is too long the lines before it are read, and it is taken for a
scalar. -/
theorem Token.scan_of_long (ended : Bool) (hnamed : ∀ l ∈ es ++ e :: rest, IsNamed l)
    (hshort : ∀ l ∈ es, l.1.length ≤ Scan.maxKeyLength) (hlong : Scan.maxKeyLength < e.1.length) :
    scan false (document ended (es ++ e :: rest)) =
      (ofLines es ++ [.scalar true e.1], some .malformed) := by
  obtain ⟨s, hs, hrun⟩ := Scan.exists_hasRead ended hnamed hshort
  have he := hnamed e (List.mem_append_right _ (List.mem_cons_self ..))
  have hsteps := length_document ended hnamed
  rw [List.length_append, List.length_cons] at hsteps
  obtain ⟨steps, hlength⟩ : ∃ steps,
      (document ended (es ++ e :: rest)).length + 2 = steps + 1 + 1 + 3 * es.length :=
    ⟨(document ended (es ++ e :: rest)).length - 3 * es.length, by omega⟩
  generalize hv : s.atColon e.1 (e.2 ++ afterLine ended rest) = v
  have hall : (Scan.start false (document ended (es ++ e :: rest))).readAll
      ((document ended (es ++ e :: rest)).length + 2) = (v, some .malformed) := by
    rw [hlength, hrun, Scan.readAll_succ (Scan.HasRead.readToken_key hs he) rfl nofun, Scan.readAll,
      Scan.HasRead.readToken_value_of_long hs hlong, hv]
  have hsettled : v.settled = v.tokens.reverse.length := by
    have hstale := Scan.isStale_atColon e.1 (e.2 ++ afterLine ended rest) s
    rw [decide_eq_true hlong, hv] at hstale
    have hpending : v.pending = [(0, s.keyHere)] := by
      rw [← hv]
      rfl
    have hcount : v.count = v.tokens.reverse.length := by simp [← hv, Scan.atColon, hs.count]
    simp [Scan.settled, hpending, hstale, hcount]
  have hmarked : Scan.withKeys v.marks 0 v.tokens.reverse = ofLines es ++ [.scalar true e.1] := by
    rw [← hv, Scan.atColon, List.reverse_cons, hs.withKeys_append]
  rw [scan, hall]
  simp only [Option.isSome_some, if_true, hsettled, List.take_length, hmarked]

end ImportRepair.Yaml

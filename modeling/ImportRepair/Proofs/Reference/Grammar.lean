import ImportRepair.Proofs.Reference.Reading
import ImportRepair.Reference.Reader

/-!
# The grammar of error lines

The grammar says what the readings of a line are, without saying how to find one: a path,
a position, the complaint and a name, in this order. A line may have many readings, since
a path may hold whole messages. A reader finds one exactly if there is one, and then the
one with the longest path.

Results:
* `isBare_iff`, `isBody_iff`: what is left of an extension and of a line.
* `isReading_iff`: readings are cuts.
* `Reader.readLine_longest`: the reading that a reader finds.
-/

namespace ImportRepair

namespace ErrorLine

variable {extension line : Text}

/-- The second text is the first one without the points that it starts with. -/
def IsBare (extension bare : Text) : Prop :=
  ∃ points, extension = points ++ bare ∧ (∀ c ∈ points, c = '.') ∧ ∀ c ∈ bare.head?, c ≠ '.'

/-- The second text is the first one without the line feeds and carriage returns that it ends
with. -/
def IsBody (line body : Text) : Prop :=
  ∃ ends, line = body ++ ends ∧ (∀ c ∈ ends, c = Text.lf ∨ c = Text.cr) ∧
    ∀ c ∈ body.getLast?, c ≠ Text.lf ∧ c ≠ Text.cr

/-- The readings of a line as an error line for files with an extension. -/
inductive IsReading (extension line : Text) : Reference → Prop
  | intro {bare body stem row column name rest : Text} :
      IsBare extension bare → IsBody line body → stem ≠ [] → Text.lf ∉ stem →
      IsNumber row → IsNumber column → IsName name →
      body = ('/' : CodePoint) :: (stem ++ ('.' : CodePoint) :: bare) ++ tail row column name rest →
      IsReading extension line ⟨name, ('/' : CodePoint) :: (stem ++ ('.' : CodePoint) :: bare)⟩

/-! ## What is left of an extension and of a line -/

theorem isBare_iff {bare : Text} : IsBare extension bare ↔ bare = bareExtension extension := by
  constructor
  · rintro ⟨points, rfl, hpoints, hbare⟩
    have hstop :=
      takeWhile_append_stop (p := (· = ('.' : CodePoint))) (fun c hc => by simpa using hpoints c hc)
      fun c hc => by simpa using hbare c hc
    exact hstop.2.symm
  · rintro rfl
    refine ⟨extension.takeWhile (· = ('.' : CodePoint)),
      List.takeWhile_append_dropWhile.symm, ?_, ?_⟩
    · intro c hc
      simpa using List.mem_takeWhile_imp hc
    · intro c hc
      simpa using head?_dropWhile extension c hc

theorem isBody_iff {body : Text} : IsBody line body ↔ body = Text.chomp line := by
  rw [Text.chomp, Text.dropRightWhile]
  constructor
  · rintro ⟨ends, rfl, hends, hbody⟩
    have hback : ∀ c ∈ body.reverse.head?,
        (decide (c = Text.lf) || decide (c = Text.cr)) = false := by
      intro c hc
      rw [List.head?_reverse] at hc
      simpa using hbody c hc
    have hstop :=
      takeWhile_append_stop (fun c hc => by simpa using hends c (List.mem_reverse.1 hc)) hback
    rw [List.reverse_append, hstop.2, List.reverse_reverse]
  · intro h
    refine ⟨(line.reverse.takeWhile fun c => c = Text.lf || c = Text.cr).reverse, ?_, ?_, ?_⟩
    · rw [h, ← List.reverse_append, List.takeWhile_append_dropWhile, List.reverse_reverse]
    · intro c hc
      simpa using List.mem_takeWhile_imp (List.mem_reverse.1 hc)
    · intro c hc
      rw [h, List.getLast?_reverse] at hc
      simpa using head?_dropWhile line.reverse c hc

/-! ## Readings -/

/-- The readings of a line are its cuts after a path that are followed by what has to follow a
path. -/
theorem isReading_iff {r : Reference} :
    IsReading extension line r ↔
      ∃ rest, Text.chomp line = r.path ++ rest ∧ isPath (bareExtension extension) r.path = true ∧
        typeAfterPath? rest = some r.type := by
  constructor
  · rintro ⟨hbare, hbody, hne, hlf, hrow, hcolumn, hname, htext⟩
    rw [isBare_iff] at hbare
    rw [isBody_iff] at hbody
    subst hbare hbody
    exact ⟨_, htext, isPath_iff.2 ⟨_, hne, hlf, rfl⟩,
      typeAfterPath?_eq_some_iff.2 ⟨_, _, _, hrow, hcolumn, hname, rfl⟩⟩
  · rintro ⟨rest, htext, hpath, htype⟩
    obtain ⟨stem, hne, hlf, hpath⟩ := isPath_iff.1 hpath
    obtain ⟨row, column, free, hrow, hcolumn, hname, rfl⟩ := typeAfterPath?_eq_some_iff.1 htype
    obtain ⟨name, path⟩ := r
    simp only at hpath
    subst hpath
    exact .intro (isBare_iff.2 rfl) (isBody_iff.2 rfl) hne hlf hrow hcolumn hname htext

theorem read_eq_none_iff : read extension line = none ↔ ∀ r, ¬IsReading extension line r := by
  rw [read, readFrom_eq_none_iff]
  simp only [List.reverse_nil, List.nil_append, isReading_iff]
  constructor
  · rintro h r ⟨rest, htext, hpath, htype⟩
    rw [h r.path rest htext hpath] at htype
    cases htype
  · intro h path rest htext hpath
    cases htype : typeAfterPath? rest with
    | none => rfl
    | some name => exact absurd ⟨rest, htext, hpath, htype⟩ (h ⟨name, path⟩)

theorem read_eq_some_iff_longest {r : Reference} :
    read extension line = some r ↔
      IsReading extension line r ∧
        ∀ r', IsReading extension line r' → r'.path.length ≤ r.path.length := by
  rw [read_eq_some_iff]
  simp only [isReading_iff]
  constructor
  · rintro ⟨rest, htext, hpath, htype, hmax⟩
    refine ⟨⟨rest, htext, hpath, htype⟩, ?_⟩
    rintro r' ⟨rest', htext', hpath', htype'⟩
    by_contra hlonger
    rw [hmax r'.path rest' htext' (Nat.lt_of_not_le hlonger) hpath'] at htype'
    cases htype'
  · rintro ⟨⟨rest, htext, hpath, htype⟩, hmax⟩
    refine ⟨rest, htext, hpath, htype, ?_⟩
    intro path' rest' htext' hlonger hpath'
    cases htype' : typeAfterPath? rest' with
    | none => rfl
    | some name =>
      have hle := hmax ⟨name, path'⟩ ⟨rest', htext', hpath', htype'⟩
      exact absurd hlonger (Nat.not_lt_of_le hle)

end ErrorLine

/-- A reader finds the reading with the longest path, and nothing in a line without a reading. -/
theorem Reader.readLine_longest (reader : Reader) (line : Text) :
    (∀ r, reader.readLine line = some r ↔
      ErrorLine.IsReading reader.extension line r ∧
        ∀ r', ErrorLine.IsReading reader.extension line r' → r'.path.length ≤ r.path.length) ∧
      (reader.readLine line = none ↔ ∀ r, ¬ErrorLine.IsReading reader.extension line r) :=
  ⟨fun _ => ErrorLine.read_eq_some_iff_longest, ErrorLine.read_eq_none_iff⟩

/-- Of two readings of a line, the one whose path holds the other message. -/
example :
    (Reader.mk "..swift").readLine
        "/a.swift:1:2: error: cannot find 'A' in scope/b.swift:3:4: error: cannot find 'B' in scope\r\n" =
      some ⟨"B", "/a.swift:1:2: error: cannot find 'A' in scope/b.swift"⟩ := by decide +kernel

end ImportRepair

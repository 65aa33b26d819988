import ImportRepair.Proofs.Reference.Reading
import ImportRepair.Proofs.Run.Execution
import ImportRepair.Proofs.Text.Lines

/-!
# Build logs that are written and read again

A build log is written from lines, of which some are error lines and the others cannot be read as
such. Every line ends in one of three ways, and the last one may not end at all. From the bytes of
the log, a reader gets the references of the error lines.

Results:
* `WrittenError.read_text`: an error line is read as the reference that it was written for, also if
  its path holds another message.
* `BuildLog.references_linesOf`: what is read from the bytes of a log, line by line.
* `BuildLog.read_back`: the index of a log holds the references of its error lines and no others.
-/

namespace ImportRepair

/-! ## Lines -/

/-- An error line as it is written for a file with the extension. -/
structure WrittenError (extension : Text) where
  /-- The path between the slash at its start and the last point. -/
  stem : Text
  line : Text
  column : Text
  type : Text
  /-- What the line holds after the complaint. -/
  suffix : Text
  stem_ne_nil : stem ≠ []
  stem_plain : stem.IsPlain
  extension_plain : (ErrorLine.bareExtension extension).IsPlain
  line_number : ErrorLine.IsNumber line
  column_number : ErrorLine.IsNumber column
  type_name : ErrorLine.IsName type
  suffix_plain : suffix.IsPlain
  suffix_clear : ¬ErrorLine.complaint <:+: suffix

namespace WrittenError

variable {extension : Text} (e : WrittenError extension)

/-- The path of the file. -/
def path : Text :=
  ('/' : CodePoint) :: (e.stem ++ ('.' : CodePoint) :: ErrorLine.bareExtension extension)

/-- The line without its end. -/
def text : Text := e.path ++ ErrorLine.tail e.line e.column e.type e.suffix

/-- What the line reports. -/
def reference : Reference := ⟨e.type, e.path⟩

theorem isPath_path : ErrorLine.isPath (ErrorLine.bareExtension extension) e.path = true :=
  ErrorLine.isPath_iff.2 ⟨e.stem, e.stem_ne_nil, e.stem_plain.lf_not_mem, rfl⟩

theorem plain_path : e.path.IsPlain :=
  Text.IsPlain.cons (by decide)
    (e.stem_plain.append (Text.IsPlain.cons (by decide) e.extension_plain))

theorem plain_text : e.text.IsPlain := by
  have hnumber : ∀ {t : Text}, ErrorLine.IsNumber t → t.IsPlain :=
    fun h c hc => CodePoint.plain_of_isDigit (h.2 c hc)
  have hname : e.type.IsPlain := fun c hc => CodePoint.plain_of_isWord (e.type_name.2 c hc)
  have hcomplaint : ErrorLine.complaint.IsPlain := by decide +kernel
  have hending : ErrorLine.ending.IsPlain := by decide +kernel
  refine e.plain_path.append (Text.IsPlain.cons (by decide) ((hnumber e.line_number).append ?_))
  refine Text.IsPlain.cons (by decide) ((hnumber e.column_number).append ?_)
  exact hcomplaint.append (hname.append (hending.append e.suffix_plain))

/-- An error line is read as the reference that it was written for. -/
theorem read_text : ErrorLine.read extension e.text = some e.reference :=
  ErrorLine.read_of_tail e.line_number e.column_number e.type_name e.suffix_clear e.isPath_path
    (Text.chomp_eq_self e.plain_text)

end WrittenError

/-- A line of a build log, without its end. -/
inductive LogLine (extension : Text)
  | error (e : WrittenError extension)
  | other (t : Text) (plain : t.IsPlain) (rejected : ErrorLine.read extension t = none)

namespace LogLine

variable {extension : Text}

/-- The text of a line. -/
def text : LogLine extension → Text
  | .error e => e.text
  | .other t _ _ => t

/-- What a line reports. -/
def reference? : LogLine extension → Option Reference
  | .error e => some e.reference
  | .other _ _ _ => none

theorem plain_text : ∀ l : LogLine extension, l.text.IsPlain
  | .error e => e.plain_text
  | .other _ h _ => h

theorem read_text : ∀ l : LogLine extension, ErrorLine.read extension l.text = l.reference?
  | .error e => e.read_text
  | .other _ _ h => h

theorem reference?_eq_some_iff {l : LogLine extension} {r : Reference} :
    l.reference? = some r ↔ ∃ e, l = .error e ∧ r = e.reference := by
  cases l with
  | error e =>
    constructor
    · intro h
      exact ⟨e, rfl, (Option.some.inj h).symm⟩
    · rintro ⟨_, he, rfl⟩
      cases he
      rfl
  | other t plain rejected =>
    constructor
    · nofun
    · rintro ⟨_, he, _⟩
      cases he

end LogLine

/-! ## Logs -/

/-- A build log: lines that end, and perhaps a last one that does not. -/
structure BuildLog (extension : Text) where
  ended : List (LogLine extension × Text.LineEnd)
  last : Option (LogLine extension)

namespace BuildLog

variable {extension : Text} (log : BuildLog extension)

/-- The lines of a log in their order. -/
def lines : List (LogLine extension) := log.ended.map (·.1) ++ log.last.toList

/-- The text of a log. -/
def text : Text :=
  Text.ofLines (log.ended.map fun l => (l.1.text, l.2)) (log.last.elim [] LogLine.text)

theorem plain_ended : ∀ l ∈ log.ended.map fun l => (l.1.text, l.2), Text.IsPlain l.1 := by
  intro l hl
  obtain ⟨x, _, rfl⟩ := List.mem_map.1 hl
  exact x.1.plain_text

theorem plain_last : Text.IsPlain (log.last.elim [] LogLine.text) := by
  cases log.last with
  | none => exact fun c hc => absurd hc List.not_mem_nil
  | some l => exact l.plain_text

theorem isScalar_text : log.text.isScalar = true :=
  Text.isScalar_ofLines log.plain_ended log.plain_last

/-- Whatever is read from the bytes of a log was reported by its lines, in their order. -/
theorem references_linesOf :
    (Files.linesOf (Utf8.encodeAll log.text)).filterMap (ErrorLine.read extension) =
      log.lines.filterMap LogLine.reference? := by
  have hend : ∀ t, ErrorLine.read extension (t ++ [Text.lf]) = ErrorLine.read extension t := by
    intro t
    rw [ErrorLine.read, ErrorLine.read, Text.chomp_append_lf]
  rw [Files.linesOf, Utf8.decodeLenient_encodeAll log.isScalar_text, text,
    Text.filterMap_lines hend rfl log.plain_ended log.plain_last, lines, List.filterMap_append,
    List.filterMap_append, List.map_map, List.filterMap_map, List.filterMap_map]
  congr 1
  · exact List.filterMap_congr fun l _ => l.1.read_text
  · cases log.last with
    | none => rfl
    | some l =>
      rw [Option.elim_some, Option.toList_some, List.filterMap_cons,
        List.filterMap_cons, l.read_text]
      rfl

/-- The index of a log holds the references of its error lines and no others. -/
theorem read_back :
    ∃ bytes, Utf8.encode log.text = .ok bytes ∧
      ∀ (w : World) (path : Text), w.tree.readBytes path = .ok bytes →
        ∃ index v, ((Reader.mk extension).read path).run w = .ok index v ∧
          ∀ r, r ∈ index.references ↔
            ∃ e : WrittenError extension, .error e ∈ log.lines ∧ r = e.reference := by
  refine ⟨Utf8.encodeAll log.text, Utf8.encode_eq_ok_iff.2 ⟨log.isScalar_text, rfl⟩, ?_⟩
  intro w path hbytes
  have hrun := run_read ⟨extension⟩ path w
  rw [hbytes] at hrun
  obtain ⟨v, hv, _⟩ := hrun
  refine ⟨_, v, hv, fun r => ?_⟩
  have hreferences : (Files.linesOf (Utf8.encodeAll log.text)).filterMap
      (Reader.mk extension).readLine = log.lines.filterMap LogLine.reference? :=
    log.references_linesOf
  rw [Reader.indexOf, hbytes, Index.mem_ofList, hreferences, List.mem_filterMap]
  constructor
  · rintro ⟨l, hl, hr⟩
    obtain ⟨e, rfl, rfl⟩ := LogLine.reference?_eq_some_iff.1 hr
    exact ⟨e, hl, rfl⟩
  · rintro ⟨e, he, rfl⟩
    exact ⟨.error e, he, rfl⟩

/-- An error line whose path holds a message about another type. -/
def nestedError : WrittenError "..swift" where
  stem := "B.swift:1:2: error: cannot find 'Bar' in scope/A"
  line := "30"
  column := "4"
  type := "Foo"
  suffix := ", did you mean 'Fob'?"
  stem_ne_nil := by decide +kernel
  stem_plain := by decide +kernel
  extension_plain := by decide +kernel
  line_number := by decide +kernel
  column_number := by decide +kernel
  type_name := by decide +kernel
  suffix_plain := by decide +kernel
  suffix_clear := by decide +kernel

/-- A log with this line, where a carriage return and an empty line look like one line end. -/
def nestedLog : BuildLog "..swift" where
  ended := [(.error nestedError, .carriageReturn), (.other [] (by decide) rfl, .lineFeed)]
  last := some (.other "1 error generated" (by decide +kernel) (by decide +kernel))

/-- The message within the path is not read. -/
theorem read_back_nested :
    ∃ index v, ((Reader.mk "..swift").read "log").run (.sample nestedLog.text) = .ok index v ∧
      ∀ r, r ∈ index.references ↔
        r = ⟨"Foo", "/B.swift:1:2: error: cannot find 'Bar' in scope/A.swift"⟩ := by
  obtain ⟨bytes, hbytes, hread⟩ := read_back nestedLog
  obtain ⟨index, v, hv, hindex⟩ := hread (.sample nestedLog.text) "log" (by
    rw [(Utf8.encode_eq_ok_iff.1 hbytes).2]
    decide +kernel)
  refine ⟨index, v, hv, fun r => ?_⟩
  rw [hindex]
  constructor
  · rintro ⟨e, he, rfl⟩
    simp only [lines, nestedLog, List.map_cons, List.map_nil, Option.toList_some, List.cons_append,
      List.nil_append, List.mem_cons, LogLine.error.injEq, List.not_mem_nil, reduceCtorEq,
      or_false] at he
    rw [he]
    decide +kernel
  · rintro rfl
    exact ⟨nestedError, List.mem_cons_self .., by decide +kernel⟩

end BuildLog

end ImportRepair

import ImportRepair.Proofs.Files.Jobs
import ImportRepair.Proofs.Text.Lines
import ImportRepair.Proofs.Text.Unified

/-!
# The two readers of a file

A build log is read line by line: what is no text is replaced, and line ends are unified. A source
file is read as one text, which has to be well-formed, and keeps its line ends. Both readers take
the bytes for the same characters, so they differ in the line ends only, and where the text is
refused the lines show a replacement character.

Results:
* `Utf8.decodeLenient_of_decode`: a well-formed text is read leniently as it is read strictly.
* `Utf8.replacement_mem_decodeLenient`: what cannot be read strictly is read with
  a replacement character.
* `Files.decode_of_readText`, `Files.decode_of_readText_undecodable`: what a read and a
  refused text tell of the bytes.
* `Files.readers_agree`: the lines of a file, and how they belong to its text.
-/

namespace ImportRepair

/-! ## Reading strictly and leniently -/

namespace Utf8

variable {bytes : List UInt8}

/-- Reading strictly stops at an ill-formed piece only. -/
theorem exists_illFormed {offset : Nat} {ps : List Piece} {e : DecodeError}
    (h : readStrict offset ps = .error e) :
    ∃ bytes reason, Piece.illFormed bytes reason ∈ ps := by
  induction ps generalizing offset e with
  | nil => cases h
  | cons p ps ih =>
    cases p with
    | illFormed bytes reason => exact ⟨bytes, reason, List.mem_cons_self ..⟩
    | character c =>
      rw [readStrict] at h
      cases hr : readStrict (offset + (encodePoint c).length) ps with
      | ok t =>
        rw [hr] at h
        cases h
      | error cause =>
        obtain ⟨bytes, reason, hmem⟩ := ih hr
        exact ⟨bytes, reason, List.mem_cons_of_mem _ hmem⟩

/-- A well-formed text is read leniently as it is read strictly. -/
theorem decodeLenient_of_decode {t : Text} (h : decode bytes = .ok t) :
    decodeLenient bytes = t := by
  obtain ⟨ht, rfl⟩ := decode_eq_ok_iff_encodeAll.1 h
  exact decodeLenient_encodeAll ht

/-- The code point that is read for what is no text. -/
def replacement : CodePoint := 0xFFFD

/-- What cannot be read strictly is read with a replacement character. -/
theorem replacement_mem_decodeLenient {e : DecodeError} (h : decode bytes = .error e) :
    replacement ∈ decodeLenient bytes := by
  obtain ⟨part, reason, hmem⟩ := exists_illFormed h
  exact List.mem_map.2 ⟨.illFormed part reason, hmem, rfl⟩

end Utf8

/-- A world with one file, which holds these bytes. -/
def World.holding (bytes : List UInt8) : World :=
  World.new ⟨[], [(["f"], .file 0)], [⟨bytes, 0o644⟩]⟩ Journal.defaultThreshold [] {}

namespace Files

variable {w : World} {path : Text} {bytes : List UInt8}

/-! ## Lines -/

/-- The lines of bytes, one after the other, are what is read leniently with unified line ends. -/
theorem flatten_linesOf (bytes : List UInt8) :
    (linesOf bytes).flatten = Text.unifyLineEnds (Utf8.decodeLenient bytes) := Text.flatten_lines _

/-- No line has a carriage return. -/
theorem cr_not_mem_linesOf {line : Text} (h : line ∈ linesOf bytes) : Text.cr ∉ line := by
  intro hm
  exact Text.cr_not_mem_unifyLineEnds _ (Text.mem_of_mem_lines h hm)

/-! ## Text -/

/-- The text that is read is the one that the bytes are strictly read as. -/
theorem decode_of_readText {t : Text} {v : World} (hb : w.tree.readBytes path = .ok bytes)
    (h : (readText path).run w = .ok t v) : Utf8.decode bytes = .ok t := by
  have hrun := run_readText_of_readBytes hb
  rw [h, textOf] at hrun
  split at hrun
  · cases hrun
  · cases hd : Utf8.decode bytes with
    | ok u =>
      rw [hd] at hrun
      cases hrun
      rfl
    | error e =>
      rw [hd] at hrun
      obtain ⟨_, hv, -⟩ := hrun
      cases hv

/-- A text is refused for the reason that the bytes are no text for. -/
theorem decode_of_readText_undecodable {e : Utf8.DecodeError} {v : World}
    (hb : w.tree.readBytes path = .ok bytes)
    (h : (readText path).run w = .error (.file (.undecodable e)) v) :
    Utf8.decode bytes = .error e := by
  have hrun := run_readText_of_readBytes hb
  rw [h, textOf] at hrun
  split at hrun
  · cases hrun
  · cases hd : Utf8.decode bytes with
    | ok u =>
      rw [hd] at hrun
      cases hrun
    | error e =>
      rw [hd] at hrun
      obtain ⟨_, hv, -⟩ := hrun
      cases hv
      rfl

/-- A file of which the bytes can be read, and that does not fail to be read, is read
or refused as no text. -/
theorem readText_decides (hb : w.tree.readBytes path = .ok bytes)
    (hread : w.mishaps.unreadable.lookup path = none) :
    (∃ t, (readText path).run w = .ok t w) ∨
      ∃ e v, (readText path).run w = .error (.file (.undecodable e)) v := by
  have hrun := run_readText_of_readBytes hb
  rw [hread, textOf] at hrun
  cases hd : Utf8.decode bytes with
  | ok t =>
    rw [hd] at hrun
    exact Or.inl ⟨t, hrun⟩
  | error e =>
    rw [hd] at hrun
    obtain ⟨v, hv, -⟩ := hrun
    exact Or.inr ⟨e, v, hv⟩

/-! ## Lines and text -/

/-- A file whose bytes can be read is read in lines that are not empty, have no carriage return, and
end with the only line feed that they have, all but perhaps the last one. If its text is read as
well, the lines are the text with every carriage return that a line feed follows replaced by this
line feed, and then every other one by a line feed. If its text is refused, there is a replacement
character in the lines. One of the two is the case, unless the file is one that fails to be read. -/
theorem readers_agree (hb : w.tree.readBytes path = .ok bytes) :
    ∃ lines, (readLines path).run w = .ok lines w ∧
      (∀ line ∈ lines, line ≠ [] ∧ Text.cr ∉ line ∧ Text.lf ∉ line.dropLast) ∧
      (∀ line ∈ lines.dropLast, line.getLast? = some Text.lf) ∧
      (∀ t v, (readText path).run w = .ok t v →
        lines.flatten =
          replaceAll [Text.cr] [Text.lf] (replaceAll [Text.cr, Text.lf] [Text.lf] t)) ∧
      (∀ e v, (readText path).run w = .error (.file (.undecodable e)) v →
        Utf8.replacement ∈ lines.flatten) ∧
      (w.mishaps.unreadable.lookup path = none → (∃ t, (readText path).run w = .ok t w) ∨
        ∃ e v, (readText path).run w = .error (.file (.undecodable e)) v) := by
  have hlines := run_readLines path w
  rw [hb] at hlines
  refine ⟨linesOf bytes, hlines, ?_, fun line h => Text.getLast?_of_mem_dropLast_lines h, ?_, ?_,
    readText_decides hb⟩
  · intro line h
    exact ⟨Text.ne_nil_of_mem_lines h, cr_not_mem_linesOf h, Text.lf_not_mem_dropLast h⟩
  · intro t v ht
    have hdecode := decode_of_readText hb ht
    rw [flatten_linesOf, Utf8.decodeLenient_of_decode hdecode, Text.unifyLineEnds_eq_replaceAll]
  · intro e v he
    have hdecode := decode_of_readText_undecodable hb he
    rw [flatten_linesOf]
    exact Text.mem_unifyLineEnds (by decide) (Utf8.replacement_mem_decodeLenient hdecode)

theorem readBytes_holding (bytes : List UInt8) :
    (World.holding bytes).tree.readBytes "/f" = .ok bytes := by
  rfl

/-- A text of which the line ends are unified, and bytes that end within a character. -/
theorem readers_agree_mixed :
    (∃ lines w, (readLines "/f").run (.holding (Utf8.encodeAll "a\r\n\rb")) = .ok lines w ∧
      lines.flatten = ("a\n\nb" : Text)) ∧
      ∃ lines w, (readLines "/f").run (.holding [0x61, 0x0D, 0xE2, 0x82]) = .ok lines w ∧
        Utf8.replacement ∈ lines.flatten := by
  obtain ⟨lines, hlines, -, -, htext, -⟩ :=
    readers_agree (readBytes_holding (Utf8.encodeAll "a\r\n\rb"))
  obtain ⟨lines', hlines', -, -, -, hrefused, -⟩ :=
    readers_agree (readBytes_holding [0x61, 0x0D, 0xE2, 0x82])
  refine ⟨⟨lines, _, hlines, ?_⟩, lines', _, hlines', ?_⟩
  · rw [htext "a\r\n\rb" _ rfl]
    decide
  · exact hrefused ⟨2, [0xE2, 0x82], .unexpectedEnd⟩ _ rfl

end Files

end ImportRepair

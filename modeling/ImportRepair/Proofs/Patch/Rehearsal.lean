import ImportRepair.Proofs.Patch.Splicing
import ImportRepair.Proofs.Patch.Telling

/-!
# Rehearsing a patch

A trial does for a file whatever patching does, up to the point at which the file would
be replaced. So it decides alike wherever that point is not reached, and where it is
reached only the trial stops.

Results:
* `readText_eq_ok_iff`: which text is read.
* `result_cases`: the replacement is reached, or the result does not depend on
  whether this is a trial.
* `trial_decides`: a trial leaves the files alone and tells what patching tells, unless
  the replacement is reached.
-/

namespace ImportRepair.Patch

variable {module path text : Text} {data : List UInt8} {w : World} {p : Place}

/-- Patching a file comes to the point of replacing it: the file counts as writable, its text is
read, the line is missing there and has a place, and the text with the line has the given bytes. -/
structure ReachesWrite (w : World) (module path : Text) (data : List UInt8) : Prop where
  writable : (Files.isWritable path).run w = .ok true w
  offered : ∃ text newText, (Files.readText path).run w = .ok text w ∧
    occursIn (Insertion.line module) text = false ∧
    Insertion.insert? text (Insertion.line module) = some newText ∧ Utf8.encode newText = .ok data

/-- Which text is read: nothing is said against reading, and the bytes are a text. -/
theorem readText_eq_ok_iff (hs : w.tree.Sound) (h : w.tree.opened? path = some p) :
    (Files.readText path).run w = .ok text w ↔
      w.mishaps.unreadable.lookup path = none ∧
        Files.textOf ((w.tree.bytesAt? p).getD []) = .ok text := by
  obtain ⟨bytes, hb, hbytes⟩ := FileTree.readBytes_of_opened? hs h
  have hrun := Files.run_readText_of_readBytes hbytes
  rw [hb, Option.getD_some]
  cases hu : w.mishaps.unreadable.lookup path with
  | some reason =>
    rw [hu] at hrun
    simp [hrun]
  | none =>
    rw [hu] at hrun
    cases htext : Files.textOf bytes with
    | error e =>
      rw [htext] at hrun
      obtain ⟨v, hv, -⟩ := hrun
      simp [hv]
    | ok read =>
      rw [htext] at hrun
      simp [hrun]

/-- The result where the replacement is reached: a trial stops there, and patching goes as
the replacement goes. -/
def resultOfWrite (obstacle? : Option OsError) (trial : Bool) (module path : Text) : Result :=
  if trial then ⟨path, module, .wouldPatch, "Would fix " ++ path⟩
  else
    match obstacle? with
    | some e => ⟨path, module, .failed, "Failed to write " ++ path ++ ": " ++ e.message⟩
    | none => ⟨path, module, .patched, "Fixed " ++ path⟩

/-- A result that trials and patching have in common, before the replacement is reached. -/
structure IsSettledEarly (w : World) (module path : Text) (r : Result) : Prop where
  eq : ∀ trial, result trial w.mishaps w.tree module path = r
  notPatched : r.status ≠ .patched
  notWouldPatch : r.status ≠ .wouldPatch
  unreached : ∀ data, ¬ReachesWrite w module path data

/-- What keeps the replacement from being reached once the text is known. -/
theorem not_reachesWrite_of_text (hread : (Files.readText path).run w = .ok text w)
    (h : ∀ newText, occursIn (Insertion.line module) text = false →
      Insertion.insert? text (Insertion.line module) = some newText →
      Utf8.encode newText ≠ .ok data) :
    ¬ReachesWrite w module path data := by
  rintro ⟨-, other, newText, hother, habsent, hnew, hdata⟩
  rw [hread] at hother
  cases hother
  exact h newText habsent hnew hdata

/-- The replacement of a file with a text is reached, or the result is settled before. -/
theorem result_cases_of_text (ht : target? w.mishaps w.tree path = some p)
    (hread : (Files.readText path).run w = .ok text w)
    (hresult : ∀ trial, result trial w.mishaps w.tree module path =
      resultOfText (w.tree.obstacle? w.mishaps path p) trial module path text) :
    (∃ data, ReachesWrite w module path data ∧ ∀ trial, result trial w.mishaps w.tree module path =
      resultOfWrite (w.tree.obstacle? w.mishaps path p) trial module path) ∨
      ∃ r, IsSettledEarly w module path r := by
  unfold resultOfText at hresult
  cases habsent : occursIn (Insertion.line module) text with
  | true =>
    simp only [habsent, if_true] at hresult
    refine Or.inr ⟨_, hresult, by simp, by simp, fun data => not_reachesWrite_of_text hread ?_⟩
    intro _ hother
    rw [habsent] at hother
    cases hother
  | false =>
    simp only [habsent, Bool.false_eq_true, if_false] at hresult
    cases hnew : Insertion.insert? text (Insertion.line module) with
    | none =>
      simp only [hnew] at hresult
      refine Or.inr ⟨_, hresult, by simp, by simp, fun data => not_reachesWrite_of_text hread ?_⟩
      intro _ _ hother
      rw [hnew] at hother
      cases hother
    | some newText =>
      simp only [hnew, resultOfNewText] at hresult
      cases hdata : Utf8.encode newText with
      | error e =>
        simp only [hdata] at hresult
        refine Or.inr ⟨_, hresult, by simp, by simp, fun data => not_reachesWrite_of_text hread ?_⟩
        intro _ _ hother
        rw [hnew] at hother
        cases hother
        simp [hdata]
      | ok data =>
        simp only [hdata] at hresult
        obtain ⟨hallowed, hp⟩ := target?_eq_some ht
        exact Or.inl ⟨data,
          ⟨Files.isWritable_iff.2 ⟨hallowed, p, hp⟩, text, newText, hread, habsent,
          hnew, hdata⟩, hresult⟩

/-- The replacement of a file is reached, or the result does not depend on whether this is a
trial. -/
theorem result_cases (hs : w.tree.Sound) (module path : Text) :
    (∃ p data, target? w.mishaps w.tree path = some p ∧ ReachesWrite w module path data ∧
      ∀ trial, result trial w.mishaps w.tree module path =
        resultOfWrite (w.tree.obstacle? w.mishaps path p) trial module path) ∨
      ∃ r, IsSettledEarly w module path r := by
  cases ht : target? w.mishaps w.tree path with
  | none =>
    refine Or.inr ⟨⟨path, module, .unwritable, _⟩, fun trial => by rw [result, ht], nofun, nofun,
      fun data h => ?_⟩
    obtain ⟨p, hp⟩ := target?_of_isWritable h.writable
    rw [ht] at hp
    cases hp
  | some p =>
    have hopen := (target?_eq_some ht).2
    -- a text that cannot be read keeps the replacement from being reached
    have hunread : ∀ {data}, ReachesWrite w module path data →
        w.mishaps.unreadable.lookup path = none ∧
          ∃ text, Files.textOf ((w.tree.bytesAt? p).getD []) = .ok text := by
      rintro data ⟨-, text, -, hread, -⟩
      obtain ⟨hnone, htext⟩ := (readText_eq_ok_iff hs hopen).1 hread
      exact ⟨hnone, text, htext⟩
    cases hreadable : w.mishaps.unreadable.lookup path with
    | some reason =>
      refine Or.inr ⟨⟨path, module, .failed, "Failed to read " ++ path ++ ": " ++ reason⟩,
        fun trial => by simp only [result, ht, hreadable], nofun, nofun, fun data h => ?_⟩
      rw [hreadable] at hunread
      cases (hunread h).1
    | none =>
      cases htext : Files.textOf ((w.tree.bytesAt? p).getD []) with
      | error e =>
        refine Or.inr ⟨⟨path, module, .failed, "Failed to read " ++ path ++ ": " ++ e.message⟩,
          fun trial => by simp only [result, ht, hreadable, htext], nofun, nofun, fun data h => ?_⟩
        obtain ⟨-, text, hother⟩ := hunread h
        rw [htext] at hother
        cases hother
      | ok text =>
        have hread := (readText_eq_ok_iff hs hopen).2 ⟨hreadable, htext⟩
        have hresult : ∀ trial, result trial w.mishaps w.tree module path =
            resultOfText (w.tree.obstacle? w.mishaps path p) trial module path text := by
          intro trial
          simp only [result, ht, hreadable, htext]
        obtain ⟨data, hreach, hall⟩ | hearly := result_cases_of_text ht hread hresult
        · exact Or.inl ⟨p, data, rfl, hreach, hall⟩
        · exact Or.inr hearly

/-- A call that returns gives the result, and the files are what they were or what
patching makes of them. -/
theorem of_file_returns {trial : Bool} {r : Result} {v : World} (hs : w.tree.Sound)
    (h : (file trial module path).run w = .ok r v) :
    r = result trial w.mishaps w.tree module path ∧
      World.Kept (Files.withTree w (after trial w.mishaps w.tree module path)) v := by
  have hf : fault? w.mishaps w.tree path = none := by
    cases hfault : fault? w.mishaps w.tree path with
    | none => rfl
    | some e =>
      have hrun := run_file hs trial module path
      rw [hfault, h] at hrun
      cases hrun
  obtain ⟨x, hx, hk⟩ := @file_returns_result trial module path w hs hf
  rw [h] at hx
  cases hx
  exact ⟨rfl, hk⟩

/-- A trial leaves all files alone, but for those that records are appended to. Its result is the
one of patching, message included, unless the file is patched or fails because it is not replaced:
these are the cases in which the trial tells that it would patch the file. -/
theorem trial_decides {d r : Result} {u v : World} (hs : w.tree.Sound)
    (hdry : (file true module path).run w = .ok d u)
    (hreal : (file false module path).run w = .ok r v) :
    FileTree.Logged w.journal.sinks w.tree u.tree ∧
      (d.status = .wouldPatch ↔ r.status = .patched ∨ r.status = .failed ∧
        ∃ data e x, ReachesWrite w module path data ∧ (Files.replace path data).run w = .error e x ∧
          r.message = "Failed to write " ++ path ++ ": " ++ e.message) ∧
      (d.status ≠ .wouldPatch → d = r) := by
  obtain ⟨rfl, hkdry⟩ := of_file_returns hs hdry
  obtain ⟨rfl, -⟩ := of_file_returns hs hreal
  refine ⟨?_, ?_⟩
  · have hafter : after true w.mishaps w.tree module path = w.tree :=
      after_of_ne_patched fun h => by cases (of_patched h).1
    have htree := hkdry.tree
    rwa [hafter] at htree
  obtain ⟨p, data, ht, hreach, hall⟩ | ⟨r, hearly⟩ := result_cases hs module path
  · have hrun := Files.run_replace hs (target?_eq_some ht).2 data
    rw [hall true, hall false]
    refine ⟨⟨fun _ => ?_, fun _ => rfl⟩, fun h => absurd rfl h⟩
    cases ho : w.tree.obstacle? w.mishaps path p with
    | none => exact Or.inl rfl
    | some e =>
      rw [ho] at hrun
      obtain ⟨x, hx, -⟩ := hrun
      exact Or.inr ⟨rfl, data, _, x, hreach, hx, rfl⟩
  · rw [hearly.eq true, hearly.eq false]
    refine ⟨⟨fun h => absurd h hearly.notWouldPatch, ?_⟩, fun _ => rfl⟩
    rintro (h | ⟨-, data, e, x, hreach, -⟩)
    · exact absurd h hearly.notPatched
    · exact absurd hreach (hearly.unreached data)

/-- The sample world with a file that fails to be replaced. -/
def stuckWorld : World :=
  { World.sample "import X\n" with mishaps := { irreplaceable :=
    [("/log", "No space left on device")] } }

/-- A trial would patch a file that then fails to be replaced. -/
theorem trial_decides_stuck :
    ∃ d u r v, (file true "M" "/log").run stuckWorld = .ok d u ∧
      (file false "M" "/log").run stuckWorld = .ok r v ∧ u.tree = stuckWorld.tree ∧
      d.status = .wouldPatch ∧ r.status = .failed := by
  have hs : stuckWorld.tree.Sound := FileTree.sound_sample "import X\n"
  have hf : fault? stuckWorld.mishaps stuckWorld.tree "/log" = none := by decide +kernel
  obtain ⟨u, hdry, -⟩ := @file_returns_result true "M" _ _ hs hf
  obtain ⟨v, hreal, -⟩ := @file_returns_result false "M" _ _ hs hf
  obtain ⟨hlogged, hiff, -⟩ := trial_decides hs hdry hreal
  have hwould : (result true stuckWorld.mishaps stuckWorld.tree "M" "/log").status =
      .wouldPatch := by
    decide +kernel
  obtain hpatched | ⟨hfailed, -⟩ := hiff.1 hwould
  · rw [show (result false stuckWorld.mishaps stuckWorld.tree "M" "/log").status = .failed by
      decide +kernel] at hpatched
    cases hpatched
  · exact ⟨_, u, _, v, hdry, hreal, hlogged.eq, hwould, hfailed⟩

end ImportRepair.Patch

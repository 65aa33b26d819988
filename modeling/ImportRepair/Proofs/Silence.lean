import ImportRepair.Proofs.Files.Jobs
import ImportRepair.Proofs.Run.Execution

/-!
# Jobs that nobody hears

Reading and writing files, and making records, shows nothing on the console and takes no
answer. So what was shown before such a job was shown is there after it, and the next
answer is still the next one.

Results:
* `IsSilent.bind`: one silent job after the other.
* `isSilent_note`, `isSilent_replace`, `Reader.isSilent_read`: jobs that are silent.
-/

namespace ImportRepair

/-- What was shown, the console, and the answers to come are what they were. -/
structure World.Unheard (w v : World) : Prop where
  screen : v.screen = w.screen
  console : v.console = w.console
  answers : v.answers = w.answers

theorem World.Unheard.refl (w : World) : Unheard w w := ⟨rfl, rfl, rfl⟩

theorem World.Unheard.trans {u v w : World} (h : Unheard w u) (h' : Unheard u v) : Unheard w v :=
  ⟨h'.screen.trans h.screen, h'.console.trans h.console, h'.answers.trans h.answers⟩

/-- A job that shows nothing and takes no answer. -/
structure IsSilent {α : Type} (job : Job α) : Prop where
  unheard : ∀ w, World.Unheard w (worldAfter (job.run w))

variable {α β : Type}

theorem IsSilent.of_ok {job : Job α} (h : IsSilent job) {w v : World} {a : α}
    (hv : job.run w = .ok a v) : World.Unheard w v := by
  have hw := h.unheard w
  rwa [hv] at hw

theorem IsSilent.of_error {job : Job α} (h : IsSilent job) {w v : World} {e : Failure}
    (hv : job.run w = .error e v) : World.Unheard w v := by
  have hw := h.unheard w
  rwa [hv] at hw

/-! ## Rules -/

theorem isSilent_pure (a : α) : IsSilent (pure a : Job α) := ⟨.refl⟩

theorem isSilent_throw (e : Failure) : IsSilent (throw e : Job α) := ⟨.refl⟩

theorem isSilent_modify {change : World → World} (h : ∀ w, World.Unheard w (change w)) :
    IsSilent (modify change : Job Unit) := ⟨h⟩

theorem IsSilent.bind {job : Job α} {next : α → Job β} (h : IsSilent job)
    (hnext : ∀ a, IsSilent (next a)) : IsSilent (job >>= next) := by
  refine ⟨fun w => ?_⟩
  rw [EStateM.run_bind]
  cases hj : job.run w with
  | ok a u => exact (h.of_ok hj).trans ((hnext a).unheard u)
  | error e u => exact h.of_error hj

/-- A job that asks for the world first is silent if it is silent whatever the world is. -/
theorem isSilent_get {next : World → Job α}
    (h : ∀ w, World.Unheard w (worldAfter ((next w).run w))) : IsSilent (get >>= next) := by
  refine ⟨fun w => ?_⟩
  rw [EStateM.run_bind, EStateM.run_get]
  exact h w

theorem isSilent_forM {step : α → Job Unit} (h : ∀ a, IsSilent (step a)) (items : List α) :
    IsSilent (items.forM step) := by
  induction items with
  | nil => exact isSilent_pure ()
  | cons a items ih => exact (h a).bind fun _ => ih

/-! ## Records -/

theorem World.unheard_handle (r : Record) (w : World) (handler : Handler) :
    Unheard w (handle r w handler) := by
  unfold handle
  split
  · exact .refl w
  · split
    · exact ⟨rfl, rfl, rfl⟩
    · exact ⟨rfl, rfl, rfl⟩
    · split
      · exact .refl w
      · exact ⟨rfl, rfl, rfl⟩

theorem World.unheard_note (severity : Severity) (source : Source) (message : Text) (w : World) :
    Unheard w (w.note severity source message) := by
  unfold note
  split
  · exact .refl w
  · have hall : ∀ (handlers : List Handler) (u : World) (r : Record),
        Unheard u (handlers.foldl (handle r) u) := by
      intro handlers
      induction handlers with
      | nil => exact fun u _ => .refl u
      | cons handler handlers ih => exact fun u r => (unheard_handle r u handler).trans (ih _ r)
    have hfirst : Unheard w { w with journal := { w.journal with
        records := w.journal.records ++ [⟨severity, source, message⟩] } } := ⟨rfl, rfl, rfl⟩
    exact hfirst.trans (hall ..)

theorem isSilent_note (severity : Severity) (source : Source) (message : Text) :
    IsSilent (note severity source message) :=
  isSilent_modify (World.unheard_note severity source message)

/-- Recording a failure and failing. -/
theorem isSilent_fail (severity : Severity) (source : Source) (message : Text) (e : Failure) :
    IsSilent (do note severity source message; throw e : Job α) :=
  (isSilent_note ..).bind fun _ => isSilent_throw e

/-! ## Files -/

namespace Files

theorem isSilent_run (result : Except FileError α) : IsSilent (run result) := by
  cases result with
  | ok a => exact isSilent_pure a
  | error e => exact isSilent_throw (.file e)

theorem isSilent_readLines (path : Text) : IsSilent (readLines path) :=
  isSilent_get fun w =>
    ((isSilent_run (w.tree.readBytes path)).bind fun bytes =>
      isSilent_pure (linesOf bytes)).unheard w

theorem isSilent_overwrite (path : Text) (data : List UInt8) : IsSilent (overwrite path data) := by
  refine isSilent_get fun w => ?_
  split
  · exact ⟨rfl, rfl, rfl⟩
  · exact (isSilent_fail ..).unheard w

theorem isSilent_cleanUp (vanishing : Bool) (path : Text) (temporary : Place) (content : Nat)
    (e : OsError) : IsSilent (cleanUp vanishing path temporary content e) := by
  have hdiscard : IsSilent (modify fun w =>
      { w with tree := w.tree.discard temporary content } : Job Unit) :=
    isSilent_modify fun w => ⟨rfl, rfl, rfl⟩
  have hrest :=
    (isSilent_note .error .files ("Error writing file " ++ path ++ ": " ++ e.message)).bind
    fun _ => hdiscard.bind fun _ => isSilent_throw (α := Unit) (.file (.system e))
  cases vanishing with
  | true => exact hdiscard.bind fun _ => hrest
  | false => exact hrest

theorem isSilent_rename (path : Text) (temporary : Place) (content : Nat) (target : PlainPath) :
    IsSilent (rename path temporary content target) := by
  refine isSilent_get fun w => ?_
  split
  · exact ⟨rfl, rfl, rfl⟩
  · exact (isSilent_cleanUp ..).unheard w

theorem isSilent_replace (path : Text) (data : List UInt8) : IsSilent (replace path data) := by
  refine ⟨fun w => ?_⟩
  cases hi : w.mishaps.irreplaceable.lookup path with
  | some reason =>
    rw [replace, EStateM.run_bind, EStateM.run_get]
    simp only [hi]
    exact .refl w
  | none =>
    cases hreal : w.tree.realPath path with
    | error e =>
      rw [replace, EStateM.run_bind, EStateM.run_get]
      simp only [hi, hreal]
      exact .refl w
    | ok target =>
      cases ht : w.mishaps.noTemporary with
      | true =>
        rw [replace, EStateM.run_bind, EStateM.run_get]
        simp only [hi, hreal, ht]
        exact ((isSilent_note ..).bind fun _ => isSilent_overwrite target.display data).unheard w
      | false =>
        cases hc : w.tree.createTemporary target data with
        | error e =>
          rw [run_replace_of_uncreated hi ht hreal hc]
          exact .refl w
        | ok created =>
          obtain ⟨temporary, content, tree⟩ := created
          rw [run_replace_of_created hi ht hreal hc]
          have hwith : World.Unheard w (withTree w tree) := ⟨rfl, rfl, rfl⟩
          exact hwith.trans ((isSilent_rename ..).unheard _)

end Files

/-! ## Reading a log -/

theorem Index.isSilent_gather (references : List Reference) : IsSilent (gather references) :=
  (isSilent_note ..).bind fun _ => isSilent_pure _

namespace Reader

theorem isSilent_scan (reader : Reader) (lines : List Text) : IsSilent (reader.scan lines) :=
  (isSilent_forM (fun _ => isSilent_note _ _ _) _).bind fun _ => isSilent_pure _

theorem isSilent_read (reader : Reader) (log : Text) : IsSilent (reader.read log) :=
  (Files.isSilent_readLines log).bind fun lines =>
    (isSilent_scan reader lines).bind fun references => Index.isSilent_gather references

end Reader

end ImportRepair

import ImportRepair.Command.Basic
import ImportRepair.Proofs.Settings.Sections
import ImportRepair.Proofs.Silence

/-!
# Whether a console can be chosen

The console is chosen by a name, which any value can stand for as long as it can be shown as a text.
A whole number with too many digits cannot, and that is all that can go wrong.

Results:
* `Console.Kind.choose_cases`: a console is chosen, or a number is too long.
-/

namespace ImportRepair.Console.Kind

open Settings

variable {settings : Entries} {w : World}

/-- The value that settings give for the kind of console. -/
def wish (settings : Entries) : Value := (get? settings "ui" "type").getD (.text "rich")

/-- The value that settings give for the indicators of the drawn console. -/
def style (settings : Entries) : Value :=
  (get? settings "ui" "progress_style").getD (.text "spinner")

/-- No number is too long in the values that the choice of a console depends on. The plain
console has no style. -/
structure IsChoosable (settings : Entries) : Prop where
  wish : (wish settings).holdsLongNumber = false
  style : (Kind.wish settings).display.toLower ≠ ("tqdm" : Text) →
    (style settings).holdsLongNumber = false

theorem drawnOf_eq (h : IsSectioned settings) :
    drawnOf (.map settings) = (style settings).shown.map fun shown =>
      .drawn (shown.toLower = ("spinner" : Text)) := by
  rw [drawnOf, map_or_empty, sectionAt_eq h (by decide)]
  show ((style settings).shown >>= fun shown => _) = _
  cases (style settings).shown <;> rfl

/-- Choosing a console by its name. -/
def byName (settings : Entries) (name : Text) : Job Kind := do
  if name = ("tqdm" : Text) then return .plain
  if name ≠ ("rich" : Text) then
    note .warning .consoleChoice ("Unknown ui.type '" ++ name ++ "', using rich.")
  MonadExcept.ofExcept (drawnOf (.map settings))

theorem choose_eq (h : IsSectioned settings) :
    choose (.map settings) =
      (MonadExcept.ofExcept (wish settings).shown >>= fun shown =>
        byName settings shown.toLower) := by
  rw [choose, sectionAt_eq h (by decide)]
  rfl

/-- The drawn console stands in for one that does not exist, which is recorded. -/
theorem run_byName (h : IsSectioned settings) {name : Text} (hname : name ≠ ("tqdm" : Text))
    (w : World) :
    ∃ v, World.Kept w v ∧ World.Unheard w v ∧ (byName settings name).run w =
      if (style settings).holdsLongNumber then .error .longNumber v
      else .ok (.drawn ((style settings).display.toLower = ("spinner" : Text))) v := by
  rw [byName, if_neg hname, drawnOf_eq h, Value.shown]
  have hlast : ∀ v, EStateM.run (MonadExcept.ofExcept (Except.map
      (fun shown : Text => Kind.drawn (shown.toLower = ("spinner" : Text)))
      (if (style settings).holdsLongNumber then .error .longNumber
        else .ok (style settings).display)) : Job Kind) v =
      if (style settings).holdsLongNumber then .error .longNumber v
      else .ok (.drawn ((style settings).display.toLower = ("spinner" : Text))) v := by
    intro v
    split <;> rfl
  by_cases hrich : name ≠ ("rich" : Text)
  · rw [if_pos hrich]
    exact ⟨_, World.kept_note .., World.unheard_note .., hlast _⟩
  · rw [if_neg hrich]
    exact ⟨w, .refl w, .refl w, hlast w⟩

/-- A console is chosen without a word, or a number is too long. -/
theorem choose_cases (h : IsSectioned settings) (w : World) :
    (∃ kind v, (choose (.map settings)).run w = .ok kind v ∧ World.Kept w v ∧ World.Unheard w v ∧
        IsChoosable settings) ∨
      ∃ v, (choose (.map settings)).run w = .error .longNumber v ∧ ¬IsChoosable settings := by
  rw [choose_eq h, Value.shown]
  cases hwish : (wish settings).holdsLongNumber with
  | true => exact Or.inr ⟨w, rfl, fun hc => by simp [hc.wish] at hwish⟩
  | false =>
    by_cases hplain : (wish settings).display.toLower = ("tqdm" : Text)
    · have hrun : (byName settings (wish settings).display.toLower).run w = .ok .plain w := by
        rw [byName, if_pos hplain]
        rfl
      exact Or.inl ⟨.plain, w, hrun, .refl w, .refl w, hwish, fun hne => absurd hplain hne⟩
    · obtain ⟨v, hkv, hquiet, hrun⟩ := run_byName h hplain w
      cases hstyle : (style settings).holdsLongNumber with
      | true =>
        rw [hstyle] at hrun
        exact Or.inr ⟨v, hrun, fun hc => by simp [hc.style hplain] at hstyle⟩
      | false =>
        rw [hstyle] at hrun
        exact Or.inl ⟨_, v, hrun, hkv, hquiet, hwish, fun _ => hstyle⟩

end ImportRepair.Console.Kind

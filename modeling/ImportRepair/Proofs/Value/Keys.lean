import ImportRepair.Value.Basic
import Mathlib.Tactic.Basic

/-!
# When two keys are the same

Keys are compared by what they stand for: truth values and numbers by their value, moments with an
offset by universal time. What is no number stands for its bits alone. A collection stands for
nothing, so it is not even the same key as itself. Everything else is, and keys that are the same
can stand for each other.

Results:
* `Value.sameKey_iff`: two keys are the same if they stand for the same.
* `Value.sameKey_symm`, `Value.sameKey_congr`, `Value.sameKey_self`: sameness of keys is an
  equivalence.
* `Entries.find?_put`: a value put at a key is found there, and the values at other keys stay.
-/

namespace ImportRepair

namespace Value

/-! ## What a key stands for -/

/-- What a number stands for. A finite one is counted in units of the smallest binary fraction. -/
inductive Magnitude
  | finite (units : Int)
  | infinite (negative : Bool)
  | none (bits : Nat)

namespace Magnitude

def ofFloat (x : Binary64) : Magnitude :=
  match x.shape with
  | .finite _ _ _ => .finite (x.units?.getD 0)
  | .infinite negative => .infinite negative
  | .notANumber => .none x.bits

def ofInt (n : Int) : Magnitude := .finite (n * Nat.pow 2 1074)

theorem ofInt_inj {m n : Int} : ofInt m = ofInt n ↔ m = n := by
  have hpos : ∀ places, Nat.pow 2 places ≠ 0 := fun places => Nat.ne_of_gt (Nat.pow_pos (by decide))
  unfold ofInt
  have hunit := hpos 1074
  generalize Nat.pow 2 1074 = unit at hunit
  rw [finite.injEq, Int.mul_eq_mul_right_iff (Int.natCast_ne_zero.2 hunit)]

theorem eqInt_iff {x : Binary64} {n : Int} : x.eqInt n = true ↔ ofFloat x = ofInt n := by
  unfold Binary64.eqInt ofFloat ofInt Binary64.units?
  generalize Nat.pow 2 1074 = unit
  cases x.shape <;> simp

/-- Floating point numbers are the same key if they are one number, or equal. -/
theorem same_iff {x y : Binary64} : (x = y ∨ x.eq y = true) ↔ ofFloat x = ofFloat y := by
  obtain ⟨m⟩ := x
  obtain ⟨n⟩ := y
  unfold Binary64.eq ofFloat Binary64.units?
  by_cases hsame : m = n
  · subst hsame
    simp
  · cases (Binary64.mk m).shape <;> cases (Binary64.mk n).shape <;> simp [hsame]

end Magnitude

/-- What a key stands for among keys; a moment by its time, and by whether that is universal. -/
inductive Sense
  | null
  | number (magnitude : Magnitude)
  | text (t : Text)
  | bytes (bytes : List UInt8)
  | date (d : Date)
  | moment (isUniversal : Bool) (time : Int)
  | pair (first second : Sense)

/-- What a moment stands for. -/
def senseOfMoment (m : Moment) : Sense :=
  .moment m.offset.isSome (m.clockTime - m.offset.getD 0 * 60000000)

theorem eq_iff_senseOfMoment {m n : Moment} :
    m.eq n = true ↔ senseOfMoment m = senseOfMoment n := by
  unfold Moment.eq senseOfMoment
  cases m.offset <;> cases n.offset <;> simp

/-- What a value stands for as a key; nothing if it cannot be one. -/
def sense? : Value → Option Sense
  | .null => some .null
  | .bool b => some (.number (.ofInt (if b then 1 else 0)))
  | .int n => some (.number (.ofInt n))
  | .float x => some (.number (.ofFloat x))
  | .text t => some (.text t)
  | .bytes bs => some (.bytes bs)
  | .date d => some (.date d)
  | .moment m => some (senseOfMoment m)
  | .pair a b => a.sense?.bind fun first => b.sense?.map (.pair first)
  | .list _ => none
  | .set _ => none
  | .map _ => none
  | .again _ => none

variable {k k' u v w : Value}

theorem sense?_of_wholeNumber? {n : Int} (h : v.wholeNumber? = some n) :
    v.sense? = some (.number (.ofInt n)) := by
  cases v <;> cases h <;> rfl

theorem sense?_pair {a b : Value} {s : Sense} : (pair a b).sense? = some s ↔
    ∃ first second, a.sense? = some first ∧ b.sense? = some second ∧ .pair first second = s := by
  simp [sense?, Option.bind_eq_some_iff]

/-! ## Sameness -/

theorem exists_sense {s t : Sense} : (∃ u, some s = some u ∧ some t = some u) ↔ s = t := by
  constructor
  · rintro ⟨u, hs, ht⟩
    exact Option.some.inj (hs.trans ht.symm)
  · rintro rfl
    exact ⟨s, rfl, rfl⟩

/-- A floating point number is the same key as a whole number of its value, and as
nothing else but its like. -/
theorem sameNumber_iff {x : Binary64} (h : ∀ y, v = .float y → False) :
    (v.wholeNumber?.map x.eqInt).getD false = true ↔ v.sense? = some (.number (.ofFloat x)) := by
  cases hn : v.wholeNumber? with
  | some n =>
    rw [sense?_of_wholeNumber? hn, Option.map_some, Option.getD_some, Magnitude.eqInt_iff, eq_comm]
    simp
  | none =>
    cases v with
    | float y => exact (h y rfl).elim
    | pair a b => simp [sense?_pair]
    | _ => simp_all [wholeNumber?, sense?, senseOfMoment]

/-- Two keys are the same if they stand for the same. -/
theorem sameKey_iff : v.sameKey w = true ↔ ∃ s, v.sense? = some s ∧ w.sense? = some s := by
  fun_induction sameKey v w with
  | case1 => simp [sense?]
  | case2 t u => simp only [sense?, exists_sense, Sense.text.injEq, decide_eq_true_eq]
  | case3 bs cs => simp only [sense?, exists_sense, Sense.bytes.injEq, decide_eq_true_eq]
  | case4 d e => simp only [sense?, exists_sense, Sense.date.injEq, decide_eq_true_eq]
  | case5 m n => simp only [sense?, exists_sense, eq_iff_senseOfMoment]
  | case6 a b c d ihfirst ihsecond =>
    rw [Bool.and_eq_true, ihfirst, ihsecond]
    simp only [sense?_pair]
    constructor
    · rintro ⟨⟨first, ha, hc⟩, second, hb, hd⟩
      exact ⟨_, ⟨first, second, ha, hb, rfl⟩, first, second, hc, hd, rfl⟩
    · rintro ⟨_, ⟨first, second, ha, hb, rfl⟩, _, _, hc, hd, ⟨⟩⟩
      exact ⟨⟨first, ha, hc⟩, second, hb, hd⟩
  | case7 x y =>
    simp only [sense?, exists_sense, Sense.number.injEq, Bool.or_eq_true, decide_eq_true_eq,
      Magnitude.same_iff]
  | case8 x v hv =>
    rw [sameNumber_iff hv]
    simp [sense?]
  | case9 v x hv =>
    rw [sameNumber_iff hv]
    simp [sense?]
  | case10 v w _ _ _ _ _ _ _ _ _ m n hn hm =>
    rw [sense?_of_wholeNumber? hm, sense?_of_wholeNumber? hn, exists_sense, Sense.number.injEq,
      Magnitude.ofInt_inj, decide_eq_true_eq]
  | case11 v w _ _ _ _ _ hpair =>
    -- keys of different kinds stand for different things, and those of one kind have been seen to
    cases v <;> cases w <;>
      first
        | exact (hpair _ _ _ _ rfl rfl).elim
        | (simp [sense?, senseOfMoment, Option.bind_eq_some_iff]; done)
        | simp_all [wholeNumber?]

theorem sameKey_symm : v.sameKey w = w.sameKey v := by
  rw [Bool.eq_iff_iff, sameKey_iff, sameKey_iff]
  exact exists_congr fun _ => and_comm

/-- Same keys are the same as the same keys. -/
theorem sameKey_congr (h : k.sameKey k' = true) : v.sameKey k = v.sameKey k' := by
  obtain ⟨s, hk, hk'⟩ := sameKey_iff.1 h
  rw [Bool.eq_iff_iff, sameKey_iff, sameKey_iff, hk, hk']

/-- Whatever can be a key stands for something. -/
theorem isSome_sense? (v : Value) : v.sense?.isSome = v.isKey := by
  fun_induction sense? v with
  | case9 a b ihfirst ihsecond =>
    rw [isKey, ← ihfirst, ← ihsecond]
    cases a.sense? <;> cases b.sense? <;> rfl
  | _ => rfl

/-- A key is the same as itself. -/
theorem sameKey_self (h : v.isKey = true) : v.sameKey v = true := by
  rw [← isSome_sense?, Option.isSome_iff_exists] at h
  obtain ⟨s, hs⟩ := h
  exact sameKey_iff.2 ⟨s, hs, hs⟩

end Value

/-! ## Entries -/

namespace Entries

theorem find?_cons (e : Value × Value) (es : Entries) (key : Value) :
    find? key (e :: es) = if e.1.sameKey key then some e.2 else find? key es := rfl

theorem put_cons (e : Value × Value) (es : Entries) (key value : Value) :
    put key value (e :: es) = if e.1.sameKey key then (e.1, value) :: es
      else e :: put key value es := rfl

/-- The same value is found at keys that are the same. -/
theorem find?_congr {k key : Value} (h : k.sameKey key = true) (es : Entries) :
    find? k es = find? key es := by
  induction es with
  | nil => rfl
  | cons e es ih => rw [find?_cons, find?_cons, Value.sameKey_congr h, ih]

/-- A value put at a key is found at every key that is the same, and the values at other keys
stay. -/
theorem find?_put (es : Entries) (k v key : Value) :
    find? key (put k v es) = if k.sameKey key then some v else find? key es := by
  induction es with
  | nil => rfl
  | cons e es ih =>
    rw [put_cons]
    split
    · next hsame =>
      have hkey : e.1.sameKey key = k.sameKey key := by
        rw [Value.sameKey_symm, Value.sameKey_congr hsame, Value.sameKey_symm]
      rw [find?_cons, find?_cons, hkey]
      split <;> rfl
    · next hother =>
      rw [find?_cons, find?_cons, ih]
      by_cases he : e.1.sameKey key = true
      · have hk : ¬k.sameKey key = true := by
          rw [← Value.sameKey_congr he, Value.sameKey_symm]
          exact hother
        rw [if_pos he, if_pos he, if_neg hk]
      · rw [if_neg he, if_neg he]

end Entries

end ImportRepair

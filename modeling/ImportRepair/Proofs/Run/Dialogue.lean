import ImportRepair.Proofs.Twins

/-!
# Asking the user

The user is asked for the module of a type again and again until an answer is not blank or the input
ends. What a dialogue shows and which answers it takes is told exactly, so it can be told which
answer belongs to which type.

Results:
* `Resolver.run_askModule`: asking goes on as long as the answers are blank.
* `Resolver.talked_of_askModule`: asking for a module is one dialogue.
* `Resolver.talked_of_resolve`: the user is asked only if no mapping knows the type.
-/

namespace ImportRepair

/-! ## Answers and requests -/

/-- The first answers that are given: the end of input follows the last one of the list. -/
def heard : Nat → List (Option Text) → List (Option Text)
  | 0, _ => []
  | n + 1, answers => answers.head?.join :: heard n answers.tail

theorem length_heard (n : Nat) (answers : List (Option Text)) : (heard n answers).length = n := by
  induction n generalizing answers with
  | zero => rfl
  | succ n ih => rw [heard, List.length_cons, ih]

theorem heard_add (m n : Nat) (answers : List (Option Text)) :
    heard (m + n) answers = heard m answers ++ heard n (answers.drop m) := by
  induction m generalizing answers with
  | zero => rw [Nat.zero_add, heard, List.nil_append, List.drop_zero]
  | succ m ih =>
    rw [Nat.succ_add, heard, heard, ih, List.cons_append, List.drop_tail]

namespace World

/-- What was shown on the way from one world to another, and which answers were taken. -/
structure Talked (w : World) (shown : List Console.Event) (said : List (Option Text)) (v : World) :
    Prop where
  screen : v.screen = w.screen ++ shown
  heard : said = heard said.length w.answers
  answers : v.answers = w.answers.drop said.length

variable {u v w : World} {shown shown' : List Console.Event} {said said' : List (Option Text)}

theorem Unheard.talked (h : Unheard w v) : w.Talked [] [] v :=
  ⟨by rw [h.screen, List.append_nil], rfl, h.answers⟩

theorem Talked.trans (h : w.Talked shown said u) (h' : u.Talked shown' said' v) :
    w.Talked (shown ++ shown') (said ++ said') v where
  screen := by rw [h'.screen, h.screen, List.append_assoc]
  heard := by
    rw [List.length_append, heard_add, ← h.heard, ← h.answers, ← h'.heard]
  answers := by rw [h'.answers, h.answers, List.drop_drop, List.length_append]

/-- Where showing something succeeds, it was shown and nothing else happened. -/
theorem eq_present_of_display {e : Console.Event} (h : (display e).run w = .ok () v) :
    v = (w.present e).2 := by
  rw [display, EStateM.run_bind, EStateM.run_modifyGet] at h
  simp only at h
  split at h
  · cases h
  · cases h
    rfl

theorem talked_of_display {e : Console.Event} (h : (display e).run w = .ok () v) :
    w.Talked [e] [] v := by
  rw [eq_present_of_display h]
  exact ⟨screen_present w e, rfl, answers_present w e⟩

theorem talked_of_ask {question : Text} {answer : Option Text}
    (h : (ask question).run w = .ok answer v) : w.Talked [.question question] [answer] v := by
  rw [ask] at h
  obtain ⟨_, u, hu, h⟩ := run_bind_eq_ok.1 h
  have hrest : u.Talked [] [answer] v := by
    rw [EStateM.run_modifyGet, World.answer] at h
    cases ha : u.answers with
    | nil =>
      rw [ha] at h
      cases h
      exact ⟨(List.append_nil _).symm, by rw [ha]; rfl, by rw [ha]; rfl⟩
    | cons first rest =>
      rw [ha] at h
      cases h
      exact ⟨(List.append_nil _).symm, by rw [ha]; rfl, by rw [ha]; rfl⟩
  exact (talked_of_display hu).trans hrest

end World

/-! ## Dialogues -/

/-- What the user says when asked for a module: answers that are blank, and then one that is
not, or the end of input. -/
structure Dialogue where
  blanks : List Text
  last : Option Text
  blank : ∀ a ∈ blanks, Text.strip a = []
  telling : ∀ a ∈ last, Text.strip a ≠ []

namespace Dialogue

/-- All answers of a dialogue. -/
def said (d : Dialogue) : List (Option Text) := d.blanks.map some ++ [d.last]

/-- The module that a dialogue comes to. -/
def module? (d : Dialogue) : Option Text := d.last.map Text.strip

/-- What a dialogue about a type shows: the question once for each answer, and a warning
after each blank one. -/
def shown (type : Text) (d : Dialogue) : List Console.Event :=
  d.blanks.flatMap (fun _ => [.question (Resolver.question type),
    .message .warning "A module name is required."]) ++ [.question (Resolver.question type)]

/-- A dialogue that is over with its first answer. -/
def brief (last : Option Text) (telling : ∀ a ∈ last, Text.strip a ≠ []) : Dialogue :=
  ⟨[], last, by simp, telling⟩

/-- A dialogue with a blank answer before it. -/
def afterBlank (a : Text) (ha : Text.strip a = []) (d : Dialogue) : Dialogue :=
  ⟨a :: d.blanks, d.last, List.forall_mem_cons.2 ⟨ha, d.blank⟩, d.telling⟩

end Dialogue

namespace Resolver

variable {type : Text} {n : Nat} {u v w : World}

/-- One question shows itself and takes one answer, and a blank one is answered by a warning. -/
theorem talked_of_askOnce {reply : Reply} (h : (askOnce type n).run w = .ok reply v) :
    match reply with
    | .module name => name ≠ [] ∧ ∃ a, Text.strip a = name ∧
        w.Talked [.question (question type)] [some a] v
    | .endOfInput => w.Talked [.question (question type)] [none] v
    | .blank => ∃ a, Text.strip a = [] ∧ w.Talked [.question (question type),
        .message .warning "A module name is required."] [some a] v := by
  rw [askOnce] at h
  obtain ⟨answer, u, hu, h⟩ := run_bind_eq_ok.1 h
  have htalk := World.talked_of_ask hu
  have hnote : ∀ severity source message, u.Talked [] [] (u.note severity source message) :=
    fun severity source message => (World.unheard_note severity source message u).talked
  cases answer with
  | none =>
    cases h
    exact htalk.trans (hnote ..)
  | some a =>
    simp only at h
    split at h
    · next hblank =>
      obtain ⟨_, x, hx, h⟩ := run_bind_eq_ok.1 h
      cases h
      exact ⟨a, List.isEmpty_iff.1 hblank, htalk.trans (World.talked_of_display hx)⟩
    · next hname =>
      cases h
      exact ⟨fun h => hname (List.isEmpty_iff.2 h), a, rfl, htalk.trans (hnote ..)⟩

/-- A blank answer is one of the answers to come. -/
theorem length_answers_of_blank (h : (askOnce type n).run w = .ok .blank v) :
    v.answers.length < w.answers.length := by
  obtain ⟨a, _, htalk⟩ := talked_of_askOnce h
  have hsaid := htalk.heard
  have hrest := htalk.answers
  cases hw : w.answers with
  | nil =>
    rw [hw] at hsaid
    cases hsaid
  | cons first rest =>
    rw [hrest, hw]
    simp

/-- Asking once, and what is done after a blank answer. -/
def asking (type : Text) (pathCount : Nat) (again : Job (Option Text)) : Job (Option Text) := do
  match ← askOnce type pathCount with
  | .module name => return some name
  | .endOfInput => return none
  | .blank => again

/-- After a blank answer there are fewer answers to come. -/
theorem run_asking_congr {again again' : Job (Option Text)}
    (h : ∀ u, u.answers.length < w.answers.length → again.run u = again'.run u) :
    (asking type n again).run w = (asking type n again').run w := by
  rw [asking, asking]
  cases hj : (askOnce type n).run w with
  | error e u => rw [run_bind_of_error hj, run_bind_of_error hj]
  | ok reply u =>
    rw [run_bind_of_ok hj, run_bind_of_ok hj]
    cases reply with
    | module name => rfl
    | endOfInput => rfl
    | blank => exact h u (length_answers_of_blank hj)

theorem askWithin_zero (type : Text) (n : Nat) :
    askWithin type n 0 = asking type n (pure none) := by
  rw [askWithin, asking]
  congr 1
  funext reply
  cases reply <;> rfl

theorem askWithin_succ (type : Text) (n retries : Nat) :
    askWithin type n (retries + 1) = asking type n (askWithin type n retries) := rfl

/-- More retries than there are answers make no difference. -/
theorem run_askWithin_congr {retries retries' : Nat} (h : w.answers.length ≤ retries)
    (h' : w.answers.length ≤ retries') :
    (askWithin type n retries).run w = (askWithin type n retries').run w := by
  induction retries generalizing retries' w with
  | zero =>
    cases retries' with
    | zero => rfl
    | succ retries' =>
      rw [askWithin_zero, askWithin_succ]
      exact run_asking_congr fun u hu => by omega
  | succ retries ih =>
    cases retries' with
    | zero =>
      rw [askWithin_zero, askWithin_succ]
      exact run_asking_congr fun u hu => by omega
    | succ retries' =>
      rw [askWithin_succ, askWithin_succ]
      exact run_asking_congr fun u hu => ih (by omega) (by omega)

/-- Asking goes on as long as the answers are blank. -/
theorem run_askModule (type : Text) (n : Nat) (w : World) :
    (askModule type n).run w = (asking type n (askModule type n)).run w := by
  have hask : ∀ u retries, u.answers.length ≤ retries →
      (askModule type n).run u = (askWithin type n retries).run u :=
    fun u retries => run_askWithin_congr (Nat.le_refl u.answers.length)
  rw [hask w (w.answers.length + 1) (Nat.le_succ _), askWithin_succ]
  exact run_asking_congr fun u hu => (hask u _ hu.le).symm

/-- What asking comes to by one question more. -/
theorem dialogue_of_asking {again : Job (Option Text)} {module : Option Text}
    (hagain : ∀ u, u.answers.length < w.answers.length → ∀ module v, again.run u = .ok module v →
      ∃ d : Dialogue, d.module? = module ∧ u.Talked (d.shown type) d.said v)
    (h : (asking type n again).run w = .ok module v) :
    ∃ d : Dialogue, d.module? = module ∧ w.Talked (d.shown type) d.said v := by
  rw [asking] at h
  obtain ⟨reply, u, hu, h⟩ := run_bind_eq_ok.1 h
  have htalk := talked_of_askOnce hu
  cases reply with
  | module name =>
    cases h
    obtain ⟨hname, a, rfl, htalk⟩ := htalk
    exact ⟨.brief (some a) (by simpa using hname), rfl, htalk⟩
  | endOfInput =>
    cases h
    exact ⟨.brief none (by simp), rfl, htalk⟩
  | blank =>
    obtain ⟨a, ha, htalk⟩ := htalk
    obtain ⟨d, hmodule, hrest⟩ := hagain u (length_answers_of_blank hu) module v h
    exact ⟨d.afterBlank a ha, hmodule, htalk.trans hrest⟩

/-- Asking for a module is one dialogue. -/
theorem talked_of_askModule {module : Option Text} (h : (askModule type n).run w = .ok module v) :
    ∃ d : Dialogue, d.module? = module ∧ w.Talked (d.shown type) d.said v := by
  generalize hlength : w.answers.length = length
  induction length using Nat.strong_induction_on generalizing w module v with
  | _ length ih =>
    rw [run_askModule] at h
    refine dialogue_of_asking (fun u hu module v h => ?_) h
    rw [hlength] at hu
    exact ih _ hu h rfl

/-! ## Chains of mappings -/

/-- The module that a chain of mappings has for a type: that of the first mapping that has one. -/
def known? (mappings : List Mapping) (type : Text) : Option Text :=
  mappings.findSome? fun mapping => mapped? mapping type

/-- The module of a type is the one that the mappings have, without a word; if they have none, the
user is asked for it. -/
theorem talked_of_resolve {mappings : List Mapping} {module : Option Text}
    (h : (resolve ⟨mappings, true⟩ type n).run w = .ok module v) :
    match known? mappings type with
    | some name => module = some name ∧ w.Talked [] [] v
    | none => ∃ d : Dialogue, d.module? = module ∧ w.Talked (d.shown type) d.said v := by
  change (resolveBy true type n mappings).run w = _ at h
  induction mappings with
  | nil =>
    rw [resolveBy, if_pos rfl] at h
    exact talked_of_askModule h
  | cons mapping mappings ih =>
    rw [known?, List.findSome?_cons]
    rw [resolveBy] at h
    cases hm : mapped? mapping type with
    | some name =>
      rw [hm] at h
      cases h
      exact ⟨rfl, (World.unheard_note ..).talked⟩
    | none =>
      rw [hm] at h
      simp only [Bool.not_true, Bool.and_false, Bool.false_eq_true, if_false] at h
      exact ih h

end Resolver

end ImportRepair

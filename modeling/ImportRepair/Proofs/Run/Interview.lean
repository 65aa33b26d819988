import ImportRepair.Proofs.Console.FrontEnds
import ImportRepair.Proofs.Console.Taking
import ImportRepair.Proofs.Run.Dialogue

/-!
# Asking for one type after the other

A user who is asked for the modules of types answers line by line. Each type takes the blank lines
that come next, with one question each, and then the line after them or the end of the input. So
what is found and what is shown depends on the lines without the blanks at their ends only, and
these are the same at every front end.

Results:
* `Exchange.modules_inTurn`: the types get the lines that are not blank, in their order.
* `Resolver.run_inTurn`: asking for types in turn takes one exchange for each.
* `Console.FrontEnd.interview_alike`: the front ends find and show the same.
-/

namespace ImportRepair

/-! ## Exchanges -/

/-- What is said about a type: a number of blank answers, and then the module,
unless the input ends. -/
structure Exchange where
  type : Text
  blanks : Nat
  module? : Option Text
deriving DecidableEq, Repr

namespace Exchange

/-- How often the question is asked. -/
def prompts (x : Exchange) : Nat := x.blanks + 1

/-- What an exchange shows: the question, and after each blank answer a warning
and the question again. -/
def shown (x : Exchange) : List Console.Event :=
  (List.replicate x.blanks [.question (Resolver.question x.type),
    .message .warning "A module name is required."]).flatten ++
      [.question (Resolver.question x.type)]

/-- The exchanges about types, one after the other, with a user who answers by lines without
blanks at their ends. -/
def inTurn : (types lines : List Text) → List Exchange
  | [], _ => []
  | type :: types, lines =>
    ⟨type, (lines.takeWhile (· = [])).length, (lines.dropWhile (· = [])).head?⟩ ::
      inTurn types (lines.dropWhile (· = [])).tail

theorem filter_dropWhile_blank (lines : List Text) :
    (lines.dropWhile (· = [])).filter (· ≠ []) = lines.filter (· ≠ []) := by
  induction lines with
  | nil => rfl
  | cons line lines ih =>
    by_cases hblank : line = []
    · rw [List.dropWhile_cons_of_pos (by simpa using hblank), ih,
        List.filter_cons_of_neg (by simpa using hblank)]
    · rw [List.dropWhile_cons_of_neg (by simpa using hblank)]

/-- The lines that are not blank: the first one, and those after it. -/
theorem filter_ne_nil_eq (lines : List Text) :
    lines.filter (· ≠ []) =
      (lines.dropWhile (· = [])).head?.toList ++
        (lines.dropWhile (· = [])).tail.filter (· ≠ []) := by
  rw [← filter_dropWhile_blank]
  cases hrest : lines.dropWhile (· = []) with
  | nil => rfl
  | cons name rest =>
    have hname : name ≠ [] := by
      have hhead := List.head?_dropWhile_not (fun line : Text => decide (line = [])) lines
      rw [hrest] at hhead
      simpa using hhead
    rw [List.filter_cons_of_pos (by simpa using hname)]
    rfl

/-- The types get the lines that are not blank, in their order. -/
theorem modules_inTurn (types lines : List Text) :
    (inTurn types lines).map (·.module?) =
      (List.range types.length).map fun i => (lines.filter (· ≠ []))[i]? := by
  induction types generalizing lines with
  | nil => rfl
  | cons type types ih =>
    rw [inTurn, List.map_cons, ih, List.length_cons, List.range_succ_eq_map,
      List.map_cons, List.map_map, filter_ne_nil_eq lines]
    cases hrest : lines.dropWhile (· = []) with
    | nil => simp [Function.comp_def]
    | cons name rest => simp [Function.comp_def]

/-- A blank line costs a question more, and the end of the input is asked for, too. -/
example : (inTurn ["Foo", "Bar"] ["", "M"]).map (fun x => (x.prompts, x.module?)) =
    [(2, some ("M" : Text)), (1, none)] := by
  decide

end Exchange

/-! ## Dialogues as exchanges -/

namespace Dialogue

/-- The exchange that a dialogue about a type is. -/
def exchange (type : Text) (d : Dialogue) : Exchange := ⟨type, d.blanks.length, d.module?⟩

theorem length_said (type : Text) (d : Dialogue) : d.said.length = (d.exchange type).prompts := by
  rw [said, List.length_append, List.length_map, List.length_singleton]
  rfl

theorem shown_eq (type : Text) (d : Dialogue) : d.shown type = (d.exchange type).shown := by
  rw [shown, Exchange.shown, List.flatMap_def, List.map_const']
  rfl

/-- A dialogue takes the blank answers that come first, and the one after them. -/
theorem exchange_eq (type : Text) (d : Dialogue) {answers : List Text}
    (h : d.said = heard d.said.length (answers.map some)) :
    let lines := answers.map Text.strip
    d.exchange type = ⟨type, (lines.takeWhile (· = [])).length, (lines.dropWhile (· = [])).head?⟩ ∧
      (answers.drop d.said.length).map Text.strip = (lines.dropWhile (· = [])).tail := by
  intro lines
  obtain ⟨blanks, last, hblank, htelling⟩ := d
  simp only [said, exchange, module?, List.length_append, List.length_map, List.length_singleton,
    Exchange.mk.injEq, true_and] at h ⊢
  subst lines
  -- each blank answer is a blank line at the front, and the line after them is not blank
  induction blanks generalizing answers with
  | nil =>
    have hfirst : (answers.map some).head?.join = last := by simpa [heard] using h.symm
    cases answers with
    | nil =>
      rw [← hfirst]
      exact ⟨⟨rfl, rfl⟩, rfl⟩
    | cons a rest =>
      have hlast : last = some a := hfirst.symm
      have hname : ¬decide (Text.strip a = []) = true := by simpa using htelling a hlast
      rw [List.map_cons, List.takeWhile_cons, if_neg hname, List.dropWhile_cons,
        if_neg hname, hlast]
      exact ⟨⟨rfl, rfl⟩, rfl⟩
  | cons blank blanks ih =>
    rw [List.forall_mem_cons] at hblank
    rw [List.map_cons, List.cons_append, List.length_cons, Nat.add_right_comm, heard,
      List.cons.injEq] at h
    cases answers with
    | nil => exact absurd h.1 (by simp)
    | cons a rest =>
      have hanswer : a = blank := by simpa using h.1.symm
      have hpos : decide (Text.strip a = []) = true := by simpa [hanswer] using hblank.1
      obtain ⟨⟨hlength, hmodule⟩, hrest⟩ := ih hblank.2 h.2
      rw [List.map_cons, List.takeWhile_cons, if_pos hpos, List.dropWhile_cons, if_pos hpos,
        List.length_cons, List.length_cons, List.drop_succ_cons]
      exact ⟨⟨congrArg (· + 1) hlength, hmodule⟩, hrest⟩

end Dialogue

/-! ## Asking -/

namespace Resolver

open Console

variable {terminal : Terminal} {type : Text} {v w : World}

/-- The question for a type can be written if the type can. -/
theorem takes_question (h : terminal.Takes type) : terminal.Takes (question type) := by
  refine h.imp id fun htype => ?_
  rw [question, Text.isScalar_append, Text.isScalar_append, htype]
  decide

theorem takes_warning (terminal : Terminal) : terminal.Takes "A module name is required." := by
  refine Or.inr ?_
  decide

/-- Asking once succeeds if the terminal takes the type. -/
theorem askOnce_returns (h : w.IsFree terminal) (ht : terminal.Takes type) (n : Nat) :
    ∃ reply v, (askOnce type n).run w = .ok reply v ∧ v.IsFree terminal := by
  obtain ⟨u, hu, hfree⟩ := h.run_display (e := .question (question type)) rfl (takes_question ht)
  have hask : (ask (question type)).run w = .ok u.answer.1 u.answer.2 := by
    rw [ask, run_bind_of_ok hu]
    rfl
  have hrest : u.answer.2.IsFree terminal := by
    refine hfree.of_console ?_
    rw [World.answer]
    split <;> rfl
  have hnote : ∀ severity source message,
      (u.answer.2.note severity source message).IsFree terminal :=
    fun severity source message =>
      hrest.of_console (World.unheard_note severity source message _).console
  rw [askOnce, run_bind_of_ok hask]
  cases u.answer.1 with
  | none => exact ⟨_, _, rfl, hnote _ _ _⟩
  | some answer =>
    simp only
    split
    · obtain ⟨x, hx, hfree⟩ :=
        hrest.run_display (e := .message .warning "A module name is required.") rfl
          (takes_warning terminal)
      rw [run_bind_of_ok hx]
      exact ⟨_, _, rfl, hfree⟩
    · exact ⟨_, _, rfl, hnote _ _ _⟩

/-- Asking until there is a module or the input ends succeeds if the terminal takes the type. -/
theorem askModule_returns (h : w.IsFree terminal) (ht : terminal.Takes type) (n : Nat) :
    ∃ module v, (askModule type n).run w = .ok module v ∧ v.IsFree terminal := by
  generalize hlength : w.answers.length = length
  induction length using Nat.strong_induction_on generalizing w with
  | _ length ih =>
    obtain ⟨reply, u, hu, hfree⟩ := askOnce_returns h ht n
    rw [run_askModule, asking, run_bind_of_ok hu]
    cases reply with
    | module name => exact ⟨_, _, rfl, hfree⟩
    | endOfInput => exact ⟨_, _, rfl, hfree⟩
    | blank =>
      -- after a blank answer there are fewer answers to come
      have hfewer : u.answers.length < length := by
        rw [← hlength]
        exact length_answers_of_blank hu
      exact ih _ hfewer hfree rfl

/-- Asking for a module is the exchange that comes next. -/
theorem run_askModule_exchange (h : w.IsFree terminal) (ht : terminal.Takes type) (n : Nat)
    {answers : List Text} (hw : w.answers = answers.map some) :
    let lines := answers.map Text.strip
    let x : Exchange := ⟨type, (lines.takeWhile (· = [])).length, (lines.dropWhile (· = [])).head?⟩
    ∃ v, (askModule type n).run w = .ok x.module? v ∧ v.IsFree terminal ∧
      v.screen = w.screen ++ x.shown ∧
      v.answers = (answers.drop x.prompts).map some ∧
      (answers.drop x.prompts).map Text.strip = (lines.dropWhile (· = [])).tail := by
  intro lines x
  obtain ⟨module, v, hrun, hfree⟩ := askModule_returns h ht n
  obtain ⟨d, rfl, htalk⟩ := talked_of_askModule hrun
  have hheard := htalk.heard
  have hscreen := htalk.screen
  have hanswers := htalk.answers
  rw [hw] at hheard hanswers
  obtain ⟨hx, hrest⟩ := d.exchange_eq type hheard
  rw [d.length_said type, hx] at hrest hanswers
  rw [d.shown_eq, hx] at hscreen
  have hmodule : d.module? = x.module? := congrArg Exchange.module? hx
  rw [hmodule] at hrun
  exact ⟨v, hrun, hfree, hscreen, hanswers.trans List.map_drop.symm, hrest⟩

/-- Asking for types in turn takes one exchange for each. -/
theorem run_inTurn (h : w.IsFree terminal) {types : List (Text × Nat)}
    (ht : ∀ t ∈ types, terminal.Takes t.1) {answers : List Text}
    (hw : w.answers = answers.map some) :
    let exchanges := Exchange.inTurn (types.map (·.1)) (answers.map Text.strip)
    ∃ v, (types.mapM fun t => askModule t.1 t.2).run w = .ok (exchanges.map (·.module?)) v ∧
      v.screen = w.screen ++ exchanges.flatMap Exchange.shown ∧
      v.answers = w.answers.drop (exchanges.map Exchange.prompts).sum := by
  induction types generalizing w answers with
  | nil => exact ⟨w, rfl, (List.append_nil _).symm, rfl⟩
  | cons t types ih =>
    rw [List.forall_mem_cons] at ht
    obtain ⟨u, hrun, hfree, hscreen, hanswers, hrest⟩ := run_askModule_exchange h ht.1 t.2 hw
    obtain ⟨v, hruns, hscreens, htaken⟩ := ih hfree ht.2 hanswers
    rw [hrest] at hruns hscreens htaken
    refine ⟨v, ?_, ?_, ?_⟩
    · rw [List.mapM_cons, run_bind_of_ok hrun, run_bind_of_ok hruns]
      rfl
    · rw [hscreens, hscreen, List.append_assoc]
      rfl
    · rw [htaken, hanswers, hw, List.map_drop, List.drop_drop]
      rfl

end Resolver

/-! ## The front ends -/

namespace Console.FrontEnd

/-- The console of a front end has not shown anything yet. -/
theorem isFree_attend (front : FrontEnd) (terminal : Terminal) (text : Text) (w : World) :
    (front.attend terminal text w).IsFree terminal := by
  intro session hs
  cases front with
  | logged => cases hs
  | _ =>
    cases hs
    exact Session.isFree_new ..

/-- Whatever the front end, as long as its terminal can show the types, the user is asked the same
questions, as often, with the same warnings in between. The types get the same modules: the lines of
the input that are not blank, without the blanks at their ends and in their order, the last line
among them if it does not end. The input has ended for the types that are left. No more of the input
is taken than there were questions. -/
theorem interview_alike (front : FrontEnd) (terminal : Terminal) (text : Text)
    (types : List (Text × Nat)) (w : World) (h : ∀ t ∈ types, terminal.Takes t.1) :
    let lines := (Text.lines text).map Text.strip
    let exchanges := Exchange.inTurn (types.map (·.1)) lines
    ∃ v, (types.mapM fun t => Resolver.askModule t.1 t.2).run (front.attend terminal text w) =
        .ok (exchanges.map (·.module?)) v ∧
      v.screen = w.screen ++ exchanges.flatMap Exchange.shown ∧
      v.answers = (front.readAll text).drop (exchanges.map Exchange.prompts).sum ∧
      exchanges.map (·.module?) = (List.range types.length).map fun i =>
        (lines.filter (· ≠ []))[i]? := by
  intro lines exchanges
  have hstrip : ((Text.lines text).map front.kept).map Text.strip = lines := by
    rw [List.map_map]
    exact List.map_congr_left fun line _ => front.strip_kept line
  obtain ⟨v, hrun, hscreen, hanswers⟩ :=
    Resolver.run_inTurn (front.isFree_attend terminal text w) h (front.readAll_eq text)
  rw [hstrip] at hrun hscreen hanswers
  refine ⟨v, hrun, hscreen, hanswers, ?_⟩
  rw [Exchange.modules_inTurn, List.length_map]

/-- Three types, each missing in one file. -/
def threeTypes : List (Text × Nat) := [("Foo", 1), ("Bar", 1), ("Baz", 1)]

/-- The blank line does not end the input, and the last line counts. There is no
answer for the third type. -/
theorem interview_alike_last_line :
    ∃ v, (threeTypes.mapM fun t => Resolver.askModule t.1 t.2).run
        (logged.attend ⟨80, false⟩ "M\r\n\n N" (.new (.empty []) Journal.defaultThreshold [] {})) =
          .ok [some ("M" : Text), some ("N" : Text), none] v ∧
      v.screen.length = 5 := by
  have hscalar : ∀ t ∈ threeTypes, t.1.isScalar = true := by decide
  have hexchanges :
      Exchange.inTurn (threeTypes.map (·.1)) ((Text.lines "M\r\n\n N").map Text.strip) =
      [⟨"Foo", 0, some ("M" : Text)⟩, ⟨"Bar", 1, some ("N" : Text)⟩, ⟨"Baz", 0, none⟩] := by
    decide +kernel
  obtain ⟨v, hrun, hscreen, _⟩ := interview_alike logged ⟨80, false⟩ "M\r\n\n N" threeTypes
    (.new (.empty []) Journal.defaultThreshold [] {}) fun t ht => Or.inr (hscalar t ht)
  rw [hexchanges] at hrun hscreen
  refine ⟨v, hrun, ?_⟩
  rw [hscreen]
  rfl

end Console.FrontEnd

end ImportRepair

import ImportRepair.Proofs.Showing
import ImportRepair.Proofs.Text.Utf8
import ImportRepair.Proofs.Text.Wrapping

/-!
# What a console takes

A message or a question is written with colours or broken into lines. What is written has
nothing in it but the code points of its text and a few signs, so it can be written as bytes if
the text can. As long as a console has not met a text that could not be written, it goes on to
take messages and questions.

Results:
* `Console.Kind.isScalar_of_prints`: what is written for a text without surrogates has none.
* `Console.Session.present_of_takes`: a console takes a message or a question if its
  terminal takes the text.
* `World.run_display_of_takes`: showing it succeeds.
-/

namespace ImportRepair

namespace Console

/-! ## Markup -/

namespace Markup

variable {P : CodePoint → Prop} {t : Text}

theorem forall_mem_escapeAfter (hslash : P backslash) (h : ∀ c ∈ t, P c) (n : Nat) :
    ∀ c ∈ escapeAfter n t, P c := by
  induction t generalizing n with
  | nil => exact List.forall_mem_nil _
  | cons c t ih =>
    rw [List.forall_mem_cons] at h
    have hrest : ∀ k, ∀ d ∈ c :: escapeAfter k t, P d :=
      fun k => List.forall_mem_cons.2 ⟨h.1, ih h.2 k⟩
    rw [escapeAfter]
    split
    · exact hrest _
    · split
      · exact List.forall_mem_append.2 ⟨List.forall_mem_replicate.2 (Or.inr hslash), hrest 0⟩
      · exact hrest 0

/-- Nothing but backslashes is added to escape a text. -/
theorem forall_mem_escape (hslash : P backslash) (h : ∀ c ∈ t, P c) : ∀ c ∈ escape t, P c := by
  have hescaped := forall_mem_escapeAfter hslash h 0
  unfold escape
  extract_lets escaped
  split
  · exact List.forall_mem_append.2 ⟨hescaped, List.forall_mem_singleton.2 hslash⟩
  · exact hescaped

theorem forall_mem_shownFrom (hslash : P backslash) (h : ∀ c ∈ t, P c) (state : State) :
    ∀ c ∈ shownFrom state t, P c := by
  have hslashes : ∀ n, ∀ c ∈ List.replicate n backslash, P c :=
    fun n => List.forall_mem_replicate.2 (Or.inr hslash)
  induction t generalizing state with
  | nil =>
    cases state with
    | after n =>
      rw [shownFrom]
      exact hslashes n
    | inTag => exact List.forall_mem_nil _
  | cons c t ih =>
    rw [List.forall_mem_cons] at h
    have hgo := ih h.2
    have hshown : ∀ d ∈ c :: shownFrom (.after 0) t, P d := List.forall_mem_cons.2 ⟨h.1, hgo _⟩
    cases state with
    | inTag =>
      rw [shownFrom]
      exact hgo _
    | after n =>
      rw [shownFrom]
      split
      · exact hgo _
      · split
        · split
          · refine List.forall_mem_append.2 ⟨hslashes _, ?_⟩
            split
            · exact hshown
            · exact hgo _
          · exact List.forall_mem_append.2 ⟨hslashes _, hshown⟩
        · exact List.forall_mem_append.2 ⟨hslashes _, hshown⟩

/-- Nothing is shown that is not in the markup, except for backslashes. -/
theorem forall_mem_shown (hslash : P backslash) (h : ∀ c ∈ t, P c) : ∀ c ∈ shown t, P c := by
  intro c hc
  exact forall_mem_shownFrom hslash h _ c (List.mem_of_mem_filter hc)

end Markup

/-! ## Texts that are written -/

/-- What a message or a question says. -/
def Event.said? : Event → Option Text
  | .message _ text | .question text => some text
  | _ => none

theorem Plain.isScalar_coloured {start text : Text} (hstart : start.isScalar = true)
    (h : text.isScalar = true) :
    (coloured start text).isScalar = true := by
  have hend : Text.isScalar (reset ++ [Text.lf]) = true := by decide
  rw [coloured, List.append_assoc, Text.isScalar_append, Text.isScalar_append, hstart, h, hend]
  rfl

namespace Drawn

theorem isScalar_styled {name text : Text} (hname : name.isScalar = true)
    (h : text.isScalar = true) :
    (Markup.styled name text).isScalar = true := by
  have hescape : (Markup.escape text).isScalar = true :=
    Text.isScalar_iff.2 (Markup.forall_mem_escape (by decide) (Text.isScalar_iff.1 h))
  have htag : ∀ u : Text, u.isScalar = true → (Markup.tag u).isScalar = true := by
    intro u hu
    rw [Markup.tag, Text.isScalar_append, Text.isScalar_append, hu]
    decide
  have hclosing : Text.isScalar ("/" ++ name) = true := by
    rw [Text.isScalar_append, hname]
    decide
  rw [Markup.styled, Text.isScalar_append, Text.isScalar_append, htag name hname, hescape,
    htag _ hclosing]
  rfl

theorem isScalar_printed {markup : Text} (h : markup.isScalar = true) (width : Nat) :
    (printed width markup).isScalar = true := by
  have hslash : Markup.backslash.isSurrogate = false := by decide
  have hblank : CodePoint.isSurrogate ' ' = false := by decide
  have hfeed : CodePoint.isSurrogate Text.lf = false := by decide
  have hshown := Markup.forall_mem_shown hslash (Text.isScalar_iff.1 h)
  rw [Text.isScalar_iff, printed]
  exact Text.forall_mem_join (List.forall_mem_singleton.2 hfeed)
    (Text.forall_mem_wrap hblank hshown width)

end Drawn

/-- Every message and every question can be printed, and what is written for a text
without surrogates has none. -/
theorem Kind.isScalar_of_prints (kind : Kind) (width : Nat) (canvas : Canvas) {e : Event}
    {text : Text} (he : e.said? = some text) :
    ∃ texts, kind.prints width canvas e = .ok texts ∧
      (text.isScalar = true → ∀ t ∈ texts, t.isScalar = true) := by
  cases kind with
  | plain =>
    refine ⟨_, rfl, fun htext => ?_⟩
    cases e with
    | message tone t =>
      cases he
      have hcolour : (Plain.colour tone).isScalar = true := by cases tone <;> decide
      exact List.forall_mem_singleton.2 (Plain.isScalar_coloured hcolour htext)
    | question t =>
      cases he
      exact List.forall_mem_singleton.2 (Plain.isScalar_coloured (by decide) htext)
    | _ => cases he
  | drawn timed =>
    have hwritten : ∀ t : Text, t.isScalar = true →
        Text.isScalar (if width = 0 then [] else t) = true := by
      intro t ht
      split
      · rfl
      · exact ht
    cases e with
    | message tone t =>
      cases he
      refine ⟨_, rfl, fun htext => List.forall_mem_singleton.2 (hwritten _ ?_)⟩
      have hname : tone.name.isScalar = true := by cases tone <;> decide
      rw [Text.isScalar_append, Drawn.isScalar_printed (Drawn.isScalar_styled hname htext)]
      decide
    | question t =>
      cases he
      refine ⟨_, rfl,
        fun htext => List.forall_mem_singleton.2 (hwritten _ (Drawn.isScalar_printed ?_ width))⟩
      rw [Text.isScalar_append, Drawn.isScalar_styled (by decide) htext]
      decide
    | _ => cases he

/-! ## Sessions -/

/-- A terminal takes a text: it takes every text, or the text has no surrogates. -/
def Terminal.Takes (terminal : Terminal) (text : Text) : Prop :=
  terminal.lenient = true ∨ text.isScalar = true

namespace Session

/-- A console at a terminal that has taken everything so far. -/
structure IsFree (terminal : Terminal) (s : Session) : Prop where
  terminal : s.terminal = terminal
  stuck : s.stuck = none

variable {terminal : Terminal} {s : Session}

theorem isFree_new (kind : Kind) (terminal : Terminal) : (new kind terminal).IsFree terminal :=
  ⟨rfl, rfl⟩

theorem IsFree.write (h : s.IsFree terminal) {texts : List Text}
    (ht : ∀ t ∈ texts, terminal.Takes t) :
    (s.write texts).1 = none ∧ (s.write texts).2.IsFree terminal := by
  induction texts generalizing s with
  | nil => exact ⟨rfl, h⟩
  | cons t rest ih =>
    rw [List.forall_mem_cons] at ht
    have hfree : (if s.terminal.lenient then none else s.stuck) = none := by
      rw [h.stuck, ite_self]
    have hencode : ∃ bytes, (if s.terminal.lenient then .ok [] else Utf8.encode t) = .ok bytes := by
      rw [h.terminal]
      obtain hlenient | hscalar := ht.1
      · exact ⟨[], if_pos hlenient⟩
      · split
        · exact ⟨[], rfl⟩
        · exact ⟨_, Utf8.encode_eq_ok_iff.2 ⟨hscalar, rfl⟩⟩
    obtain ⟨bytes, hbytes⟩ := hencode
    rw [Session.write, hfree]
    simp only
    rw [hbytes]
    exact ih ⟨h.terminal, h.stuck⟩ ht.2

/-- A console takes a message or a question if its terminal takes the text. -/
theorem IsFree.present_of_takes (h : s.IsFree terminal) {e : Event} {text : Text}
    (he : e.said? = some text) (ht : terminal.Takes text) :
    (s.present e).1 = none ∧ (s.present e).2.IsFree terminal := by
  obtain ⟨texts, hprints, hscalar⟩ := s.kind.isScalar_of_prints s.terminal.width s.canvas he
  have hfree : ({ s with canvas := s.canvas.after e } : Session).IsFree terminal :=
    ⟨h.terminal, h.stuck⟩
  rw [present, hprints]
  exact hfree.write fun t htexts => ht.imp id fun htext => hscalar htext t htexts

end Session

end Console

/-! ## Worlds -/

namespace World

open Console

/-- The console of a world, if there is one, stands at a terminal that has taken everything so
far. -/
def IsFree (terminal : Terminal) (w : World) : Prop :=
  ∀ session ∈ w.console, session.IsFree terminal

variable {terminal : Terminal} {v w : World}

theorem IsFree.of_console (h : w.IsFree terminal) (hv : v.console = w.console) :
    v.IsFree terminal := by
  intro session hs
  rw [hv] at hs
  exact h session hs

/-- Showing a message or a question succeeds if the terminal takes its text. -/
theorem IsFree.run_display (h : w.IsFree terminal) {e : Event} {text : Text}
    (he : e.said? = some text) (ht : terminal.Takes text) :
    ∃ v, (display e).run w = .ok () v ∧ v.IsFree terminal := by
  have hpresent : (w.present e).1 = none ∧ (w.present e).2.IsFree terminal := by
    unfold present
    simp only
    cases hc : w.console with
    | none =>
      refine ⟨rfl, ?_⟩
      intro session hs
      cases hs
    | some session =>
      obtain ⟨hnone, hfree⟩ := (h session hc).present_of_takes he ht
      refine ⟨hnone, ?_⟩
      rintro _ ⟨⟩
      exact hfree
  refine ⟨_, ?_, hpresent.2⟩
  rw [ImportRepair.run_display, hpresent.1]

end World

end ImportRepair

import ImportRepair.Files.RealPath
import ImportRepair.Proofs.Files.Following

/-!
# What real paths are spelled with

Tracing a path adds no letters but those of the links on the way, of the working directory, and of
the slashes and points between names. These can all be in a path. So if there is no real path, or
none that can be opened, the path itself has a letter that is to blame.

Results:
* `PlainPath.SpeltBy.display`: the text of a path is spelled with the letters of its names.
* `FileTree.realPath_spelt`: the letters of a real path, and why there may be no real path.
-/

namespace ImportRepair

variable {P : CodePoint → Prop}

theorem Place.mem_follow {place : Place} {names : List Text} {name : Text}
    (h : name ∈ Place.follow place names) : name ∈ place ∨ name ∈ names := by
  induction names generalizing place with
  | nil => exact Or.inl h
  | cons first names ih =>
    rw [Place.follow] at h
    split at h
    · exact (ih h).imp id (List.mem_cons_of_mem _)
    split at h
    · obtain hn | hn := ih h
      · exact Or.inl (List.mem_of_mem_tail hn)
      · exact Or.inr (List.mem_cons_of_mem _ hn)
    · obtain hn | hn := ih h
      · obtain rfl | hn := List.mem_cons.1 hn
        · exact Or.inr (List.mem_cons_self ..)
        · exact Or.inl hn
      · exact Or.inr (List.mem_cons_of_mem _ hn)

/-! ## Plain paths -/

namespace PlainPath

variable {p q : PlainPath} {name path : Text}

/-- The names of a path are spelled with certain code points. What it starts with are slashes. -/
def SpeltBy (P : CodePoint → Prop) (p : PlainPath) : Prop :=
  (∀ c ∈ p.root, c = Path.slash) ∧ ∀ name ∈ p.names, ∀ c ∈ name, P c

theorem SpeltBy.child (h : p.SpeltBy P) (hn : ∀ c ∈ name, P c) : (p.child name).SpeltBy P := by
  refine ⟨h.1, fun x hx => ?_⟩
  obtain hx | hx := List.mem_append.1 hx
  · exact h.2 x hx
  · rw [List.mem_singleton.1 hx]
    exact hn

theorem SpeltBy.parent (h : p.SpeltBy P) : p.parent.SpeltBy P :=
  ⟨h.1, fun _ hn => h.2 _ (List.dropLast_subset _ hn)⟩

theorem SpeltBy.above (h : p.SpeltBy P) (ha : ∀ c ∈ Path.above, P c) : p.above.SpeltBy P := by
  unfold PlainPath.above
  split
  · exact h.child ha
  · exact h.parent

theorem speltBy_ofPlace {place : Place} (h : ∀ name ∈ place, ∀ c ∈ name, P c) :
    (ofPlace place).SpeltBy P :=
  ⟨fun _ hc => List.mem_singleton.1 hc, fun name hn => h name (List.mem_reverse.1 hn)⟩

theorem speltBy_root : (ofPlace []).SpeltBy P := speltBy_ofPlace (by simp)

theorem SpeltBy.start (h : p.SpeltBy P) (target : Text) :
    (if Path.isAbsolute target then ofPlace [] else p).SpeltBy P := by
  split
  · exact speltBy_root
  · exact h

theorem SpeltBy.flat (h : p.SpeltBy P) : p.flat.SpeltBy P := by
  refine ⟨h.1, fun name hn => ?_⟩
  have hmem : name ∈ Place.follow [] p.names := List.mem_reverse.1 hn
  exact h.2 name ((Place.mem_follow hmem).resolve_left List.not_mem_nil)

theorem SpeltBy.append (hp : p.SpeltBy P) (hq : q.SpeltBy P) : (p.append q).SpeltBy P := by
  unfold PlainPath.append
  split
  · refine ⟨hp.1, fun name hn => ?_⟩
    obtain hn | hn := List.mem_append.1 hn
    · exact hp.2 name hn
    · exact hq.2 name hn
  · exact hq

theorem speltBy_of (h : ∀ c ∈ path, P c) : (of path).SpeltBy P :=
  ⟨fun _ hc => List.eq_of_mem_replicate hc,
    fun _ hn => Text.forall_mem_of_mem_splitAt h (List.mem_filter.1 hn).1⟩

/-- The text of a path is spelled with the letters of its names, with slashes and points. -/
theorem SpeltBy.display (h : p.SpeltBy P) (hP : ∀ t, Path.IsClean t → ∀ c ∈ t, P c) :
    ∀ c ∈ p.display, P c := by
  rw [PlainPath.display]
  split
  · exact hP _ Path.isClean_here
  · intro c hc
    obtain hc | hc := List.mem_append.1 hc
    · rw [h.1 c hc]
      exact hP _ Path.isClean_slash _ (List.mem_singleton_self _)
    · exact Text.forall_mem_join (hP _ Path.isClean_slash) h.2 c hc

end PlainPath

/-! ## Tracing -/

namespace FileTree

variable {tree : FileTree}

/-- An impasse that comes from certain code points. -/
def Impasse.SpeltBy (P : CodePoint → Prop) : Impasse → Prop
  | .circle path => ∀ c ∈ path, P c
  | .faulty e => ∃ path, (∀ c ∈ path, P c) ∧ checkPath path = .error e

/-- What is found is spelled with certain code points, or it is not found because of them. -/
def Spelt (P : CodePoint → Prop) : Except Impasse PlainPath → Prop
  | .ok path => path.SpeltBy P
  | .error e => e.SpeltBy P

theorem Impasse.SpeltBy.before {e : Impasse} (h : e.SpeltBy P) (hslash : P Path.slash)
    {rest : List Text} (hrest : ∀ name ∈ rest, ∀ c ∈ name, P c) : (e.before rest).SpeltBy P := by
  have hjoin : ∀ c ∈ Text.join [Path.slash] rest, P c :=
    Text.forall_mem_join (fun c hc => by rwa [List.mem_singleton.1 hc]) hrest
  cases e with
  | faulty e => exact h
  | circle path =>
    show ∀ c ∈ Path.joined path _, P c
    unfold Path.joined
    split
    · exact hjoin
    split
    · exact List.forall_mem_append.2 ⟨h, hjoin⟩
    · exact List.forall_mem_append.2 ⟨h, List.forall_mem_cons.2 ⟨hslash, hjoin⟩⟩

section Trace

variable (hP : ∀ t, Path.IsClean t → ∀ c ∈ t, P c) (hl : tree.HasCleanLinks)
include hP hl

theorem spelt_traceNames {followLink : PlainPath → Text → Except Impasse PlainPath}
    (hfollow : ∀ link target, link.SpeltBy P → (∀ c ∈ target, P c) →
      Spelt P (followLink link target))
    {current : PlainPath} {names : List Text} (hc : current.SpeltBy P)
    (hnames : ∀ name ∈ names, ∀ c ∈ name, P c) :
    Spelt P (tree.traceNames followLink current names) := by
  induction names generalizing current with
  | nil => exact hc
  | cons name rest ih =>
    obtain ⟨hname, hrest⟩ := List.forall_mem_cons.1 hnames
    have hnext := hc.child hname
    rw [traceNames]
    split
    · exact ih hc hrest
    split
    · exact ih (hc.above (hP _ Path.isClean_above)) hrest
    · simp only
      split
      · next e hcheck => exact ⟨_, hnext.display hP, hcheck⟩
      · split
        · exact ih hnext hrest
        · next target htarget =>
          have hclean : Path.IsClean target := by
            unfold link? at htarget
            split at htarget
            · next t ht =>
              cases htarget
              exact hl _ _ ht
            · cases htarget
          have hspelt := hfollow (current.child name) target hnext (hP _ hclean)
          split
          · next path hpath =>
            rw [hpath] at hspelt
            exact ih hspelt hrest
          · next e he =>
            rw [he] at hspelt
            exact Impasse.SpeltBy.before hspelt
              (hP _ Path.isClean_slash _ (List.mem_singleton_self _)) hrest

theorem spelt_trace (links : Nat) (active : List PlainPath) {current : PlainPath}
    {names : List Text} (hc : current.SpeltBy P) (hnames : ∀ name ∈ names, ∀ c ∈ name, P c) :
    Spelt P (tree.trace links active current names) := by
  induction links generalizing active current names with
  | zero =>
    refine spelt_traceNames hP hl (fun link _ hlink _ => ?_) hc hnames
    exact hlink.display hP
  | succ links ih =>
    refine spelt_traceNames hP hl (fun link target hlink htarget => ?_) hc hnames
    simp only
    split
    · exact hlink.display hP
    · exact ih _ (hlink.parent.start target) fun _ hn => Text.forall_mem_of_mem_splitAt htarget hn

/-- A real path is spelled with the letters of the path. If there is none, the letters of the path
keep some text from being a path. -/
theorem realPath_spelt (hw : tree.Solid tree.working) {path : Text} (hpath : ∀ c ∈ path, P c) :
    match tree.realPath path with
    | .ok real => real.SpeltBy P
    | .error e => ∃ t, (∀ c ∈ t, P c) ∧ checkPath t = .error e := by
  have hworking : ∀ name ∈ tree.working, ∀ c ∈ name, P c :=
    fun name hn => hP _ (hw.isName name hn).clean
  have hempty : (⟨[], []⟩ : PlainPath).SpeltBy P := ⟨by simp, by simp⟩
  have hspelt := spelt_trace hP hl (2 * tree.linkCount) [] (hempty.start path)
    fun name (hn : name ∈ Text.splitAt Path.slash path) => Text.forall_mem_of_mem_splitAt hpath hn
  rw [realPath]
  simp only [Path.names]
  cases ht : tree.trace (2 * tree.linkCount) []
      (if Path.isAbsolute path then PlainPath.ofPlace [] else ⟨[], []⟩)
      (Text.splitAt Path.slash path) with
  | ok real =>
    rw [ht] at hspelt
    refine PlainPath.speltBy_ofPlace fun name hn => ?_
    obtain hn | hn := Place.mem_follow hn
    · split at hn
      · exact hworking name hn
      · cases hn
    · exact hspelt.2 name hn
  | error e =>
    rw [ht] at hspelt
    cases e with
    | faulty e => exact hspelt
    | circle rest =>
      have habsolute :=
        ((PlainPath.speltBy_ofPlace hworking).append (PlainPath.speltBy_of hspelt)).flat
      exact PlainPath.speltBy_of (habsolute.display hP)

end Trace

end FileTree

end ImportRepair

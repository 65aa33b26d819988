import ImportRepair.Proofs.Files.Opened

/-!
# Real paths are their own real paths

Tracing an absolute path leaves no name that stands for nothing, no double points and no link on
what it has traced so far, and a path that is like that is its own real path. If links run in a
circle, the names that follow stay as they are: then the real path still has no points, but
there may be links on it.

Results:
* `FileTree.outcome_trace`: what is right of a path while it is traced.
* `FileTree.of_realPath`: a real path has no points, and no links unless a circle was met.
* `FileTree.realPath_display`: the real path of a path without points and links.
-/

namespace ImportRepair

/-- A name that can stand in an absolute path after its points are gone. -/
structure Path.IsPlain (name : Text) : Prop where
  notIdle : isIdle name = false
  notAbove : name ≠ above
  noSlash : slash ∉ name

/-! ## Paths without points -/

namespace Place

/-- Names that are followed leave neither points nor names that stand for nothing. -/
theorem isPlain_of_mem_follow {place : Place} {names : List Text}
    (h : ∀ name ∈ place, Path.IsPlain name) (hnames : ∀ name ∈ names, Path.slash ∉ name) :
    ∀ name ∈ place.follow names, Path.IsPlain name := by
  induction names generalizing place with
  | nil => exact h
  | cons first names ih =>
    obtain ⟨hfirst, hrest⟩ := List.forall_mem_cons.1 hnames
    rw [follow]
    split
    · exact ih h hrest
    · next hidle =>
      split
      · exact ih (fun name hn => h name (List.mem_of_mem_tail hn)) hrest
      · next habove =>
        refine ih (List.forall_mem_cons.2 ⟨⟨?_, habove, hfirst⟩, h⟩) hrest
        simpa using hidle

/-- Without points, names are followed one into the other. -/
theorem follow_of_isPlain {place : Place} {names : List Text}
    (h : ∀ name ∈ names, Path.IsPlain name) :
    place.follow names = names.reverse ++ place := by
  induction names generalizing place with
  | nil => rfl
  | cons first names ih =>
    obtain ⟨hfirst, hrest⟩ := List.forall_mem_cons.1 h
    rw [follow, hfirst.notIdle, if_neg (by simp), if_neg hfirst.notAbove, ih hrest]
    simp

end Place

namespace PlainPath

variable {p : PlainPath} {name : Text}

/-- A path that starts with slashes is absolute. -/
theorem isAbsolute_display_of_root (h : p.root ≠ []) (hslash : ∀ c ∈ p.root, c = Path.slash) :
    Path.isAbsolute p.display = true := by
  rw [display, if_neg fun hempty => h hempty.1]
  cases hroot : p.root with
  | nil => exact absurd hroot h
  | cons c root =>
    rw [hroot, List.forall_mem_cons] at hslash
    rw [hslash.1]
    rfl

/-- An absolute path without points. It starts with one slash, or with exactly two. -/
structure IsProper (p : PlainPath) : Prop where
  root : p.root = [Path.slash] ∨ p.root = [Path.slash, Path.slash]
  names : ∀ name ∈ p.names, Path.IsPlain name

theorem IsProper.exists_replicate (h : p.IsProper) :
    ∃ k, (k = 1 ∨ k = 2) ∧ p.root = List.replicate k Path.slash := by
  obtain hroot | hroot := h.root
  · exact ⟨1, .inl rfl, hroot⟩
  · exact ⟨2, .inr rfl, hroot⟩

theorem IsProper.display_eq (h : p.IsProper) :
    p.display = p.root ++ Text.join [Path.slash] p.names := by
  obtain ⟨k, hk, hroot⟩ := h.exists_replicate
  rw [display, if_neg]
  rintro ⟨hnil, -⟩
  rw [hroot, List.replicate_eq_nil_iff] at hnil
  omega

theorem IsProper.isAbsolute_display (h : p.IsProper) : Path.isAbsolute p.display = true := by
  obtain ⟨k, hk, hroot⟩ := h.exists_replicate
  refine isAbsolute_display_of_root ?_ ?_
  · rw [hroot]
    simp
    omega
  · rw [hroot]
    exact fun _ hc => List.eq_of_mem_replicate hc

/-- The names of a path without points, besides the empty ones at its slashes. -/
theorem IsProper.names_display (h : p.IsProper) :
    ∃ k, Path.names p.display = List.replicate k [] ++ p.names := by
  obtain ⟨k, -, hroot⟩ := h.exists_replicate
  rw [h.display_eq, hroot, Path.names_replicate_slash]
  by_cases hnil : p.names = []
  · exact ⟨k + 1, by rw [hnil, List.replicate_succ', List.append_nil]; rfl⟩
  · exact ⟨k, by rw [Path.names, Text.splitAt_join hnil fun name hn => (h.names name hn).noSlash]⟩

/-- There are no points between the slashes of a path without points. -/
theorem IsProper.noPoints (h : p.IsProper) :
    ∀ name ∈ Path.names p.display, name ≠ Path.here ∧ name ≠ Path.above := by
  intro name hn
  obtain ⟨k, hk⟩ := h.names_display
  rw [hk, List.mem_append] at hn
  obtain hn | hn := hn
  · rw [List.eq_of_mem_replicate hn]
    decide
  · refine ⟨?_, (h.names name hn).notAbove⟩
    rintro rfl
    exact absurd (h.names _ hn).notIdle (by decide)

/-- A path without points is read as it is shown. -/
theorem IsProper.of_display (h : p.IsProper) : of p.display = p := by
  obtain ⟨k, hk⟩ := h.names_display
  obtain ⟨slashes, hslashes, hroot⟩ := h.exists_replicate
  have hnames : (Path.names p.display).filter (fun name => !Path.isIdle name) = p.names := by
    rw [hk, List.filter_append, List.filter_eq_nil_iff.2, List.nil_append, List.filter_eq_self.2]
    · intro name hn
      rw [(h.names name hn).notIdle]
      rfl
    · intro name hn
      rw [List.eq_of_mem_replicate hn]
      decide
  have hhead : (Text.join [Path.slash] p.names).head? ≠ some Path.slash := by
    cases hp : p.names with
    | nil => simp [Text.join]
    | cons name rest =>
      have hname := h.names name (hp ▸ List.mem_cons_self ..)
      cases name with
      | nil => exact absurd hname.notIdle (by decide)
      | cons c name =>
        have hc : c ≠ Path.slash := fun hc => hname.noSlash (hc ▸ List.mem_cons_self ..)
        cases rest <;> simpa [Text.join] using hc
  have htake : (p.display.takeWhile (· = Path.slash)).length = slashes := by
    rw [h.display_eq, hroot, List.takeWhile_append_of_pos (by simp)]
    cases hjoin : Text.join [Path.slash] p.names with
    | nil => simp
    | cons c t =>
      have hc : c ≠ Path.slash := by
        rw [hjoin] at hhead
        simpa using hhead
      simp [hc]
  obtain ⟨root, names⟩ := p
  unfold of
  simp only at hnames hroot
  rw [htake, hnames, hroot]
  obtain rfl | rfl := hslashes <;> rfl

/-- What a path spells from the root has no points. -/
theorem isProper_flat {path : Text} (h : Path.isAbsolute path = true) :
    (of path).flat.IsProper := by
  refine ⟨?_, fun name hn => ?_⟩
  · have hroot := (Path.isAbsolute_iff_root path).1 h
    unfold of at hroot
    show List.replicate _ Path.slash = _ ∨ List.replicate _ Path.slash = _
    generalize (path.takeWhile (· = Path.slash)).length = slashes at hroot ⊢
    split
    · exact .inr rfl
    · next hne =>
      have hone : min slashes 1 = 1 := by
        simp only [hne, if_false, ne_eq, List.replicate_eq_nil_iff] at hroot
        omega
      rw [hone]
      exact .inl rfl
  · refine Place.isPlain_of_mem_follow (by simp) ?_ name (List.mem_reverse.1 hn)
    intro name hn
    exact Path.noSlash_of_mem_names (List.mem_filter.1 hn).1

end PlainPath

/-! ## Tracing -/

namespace FileTree

variable {tree : FileTree} {p real : PlainPath} {name path rest : Text}
  {names : List Text} {links : Nat} {active : List PlainPath}

/-- No link stands at a place, nor at one of those around it. -/
def HasNoLink (tree : FileTree) (place : Place) : Prop :=
  ∀ around, around <:+ place → tree.link? around = none

/-- A path from the root without points and without links on it. -/
structure IsReal (tree : FileTree) (p : PlainPath) : Prop where
  root : p.root = [Path.slash]
  names : ∀ name ∈ p.names, Path.IsPlain name
  noLink : tree.HasNoLink p.names.reverse

namespace IsReal

theorem isProper (h : tree.IsReal p) : p.IsProper := ⟨.inl h.root, h.names⟩

theorem eq_ofPlace (h : tree.IsReal p) : p = .ofPlace p.names.reverse := by
  obtain ⟨root, names⟩ := p
  rw [PlainPath.ofPlace, List.reverse_reverse]
  exact congrArg (PlainPath.mk · names) h.root

theorem placeOf (h : tree.IsReal p) : tree.placeOf p = p.names.reverse := by
  rw [FileTree.placeOf, h.root, if_neg (by simp), Place.follow_of_isPlain h.names, List.append_nil]

theorem ofPlace_nil (tree : FileTree) : tree.IsReal (.ofPlace []) := by
  refine ⟨rfl, by simp [PlainPath.ofPlace], fun around haround => ?_⟩
  rw [List.suffix_nil.1 haround]
  rfl

theorem child (h : tree.IsReal p) (hname : Path.IsPlain name)
    (hlink : tree.link? (tree.placeOf (p.child name)) = none) : tree.IsReal (p.child name) := by
  rw [placeOf_child hname.notIdle hname.notAbove, h.placeOf] at hlink
  refine ⟨h.root, ?_, fun around haround => ?_⟩
  · intro x hx
    obtain hx | hx := List.mem_append.1 hx
    · exact h.names x hx
    · rw [List.mem_singleton.1 hx]
      exact hname
  · rw [PlainPath.child, List.reverse_append, List.reverse_singleton, List.singleton_append,
      List.suffix_cons_iff] at haround
    obtain rfl | haround := haround
    · exact hlink
    · exact h.noLink around haround

theorem above (h : tree.IsReal p) : tree.IsReal p.above := by
  have hroot : p.root ≠ [] := by simp [h.root]
  rw [PlainPath.above, if_neg fun hr => hroot hr.1]
  refine ⟨h.root, fun x hx => h.names x (List.dropLast_subset _ hx), fun around haround => ?_⟩
  rw [PlainPath.parent, ← List.tail_reverse] at haround
  exact h.noLink around (haround.trans (List.tail_suffix _))

theorem start (h : tree.IsReal p) (target : Text) :
    tree.IsReal (if Path.isAbsolute target then .ofPlace [] else p) := by
  split
  · exact ofPlace_nil tree
  · exact h

end IsReal

/-- What is right of the end of tracing from the root: a path without points and links, or an
absolute path that the circle is met on. -/
def Outcome (tree : FileTree) : Except Impasse PlainPath → Prop
  | .ok p => tree.IsReal p
  | .error (.circle path) => Path.isAbsolute path = true
  | .error (.faulty _) => True

theorem isAbsolute_joined (h : Path.isAbsolute path = true) (rest : Text) :
    Path.isAbsolute (Path.joined path rest) = true := by
  cases path with
  | nil => cases h
  | cons c path =>
    unfold Path.joined
    split
    · assumption
    · split <;> exact h

theorem Outcome.before {e : Impasse} (h : tree.Outcome (.error e)) (rest : List Text) :
    tree.Outcome (.error (e.before rest)) := by
  cases e with
  | circle path => exact isAbsolute_joined h _
  | faulty e => trivial

theorem outcome_traceNames {followLink : PlainPath → Text → Except Impasse PlainPath}
    (hfollow : ∀ current name target, tree.IsReal current → Path.IsPlain name →
      tree.Outcome (followLink (current.child name) target))
    (hp : tree.IsReal p) (hnames : ∀ name ∈ names, Path.slash ∉ name) :
    tree.Outcome (tree.traceNames followLink p names) := by
  induction names generalizing p with
  | nil => exact hp
  | cons name rest ih =>
    obtain ⟨hslash, hrest⟩ := List.forall_mem_cons.1 hnames
    rw [traceNames]
    split
    · exact ih hp hrest
    next hidle =>
    split
    · exact ih hp.above hrest
    next habove =>
    have hname : Path.IsPlain name := ⟨by simpa using hidle, habove, hslash⟩
    simp only
    split
    · trivial
    split
    · next hlink => exact ih (hp.child hname hlink) hrest
    · next target _ =>
      have houtcome := hfollow p name target hp hname
      split
      · next path hpath =>
        rw [hpath] at houtcome
        exact ih houtcome hrest
      · next e he =>
        rw [he] at houtcome
        exact houtcome.before rest

/-- What is right of the end of tracing from the root. The induction is on the links that may still
be traced, and for one number of links on the names. -/
theorem outcome_trace (links : Nat) (active : List PlainPath) (hp : tree.IsReal p)
    (hnames : ∀ name ∈ names, Path.slash ∉ name) :
    tree.Outcome (tree.trace links active p names) := by
  have hcircle : ∀ {current name}, tree.IsReal current → Path.IsPlain name →
      tree.Outcome (.error (.circle (current.child name).display)) := by
    intro current name hcurrent hname
    refine PlainPath.IsProper.isAbsolute_display ⟨.inl hcurrent.root, fun x hx => ?_⟩
    obtain hx | hx := List.mem_append.1 hx
    · exact hcurrent.names x hx
    · rw [List.mem_singleton.1 hx]
      exact hname
  induction links generalizing active p names with
  | zero => exact outcome_traceNames (fun _ _ _ hcurrent hname => hcircle hcurrent hname) hp hnames
  | succ links ih =>
    refine outcome_traceNames (fun current name target hcurrent hname => ?_) hp hnames
    simp only
    split
    · exact hcircle hcurrent hname
    · rw [parent_child]
      exact ih _ (hcurrent.start target) fun _ hn => Path.noSlash_of_mem_names hn

/-- An absolute path does not depend on the working directory. -/
theorem absolute_eq (h : (PlainPath.of path).root ≠ []) :
    tree.absolute path = (PlainPath.of path).flat.display := by
  rw [absolute, PlainPath.append, if_neg h]

/-- A path whose links run in a circle: one is met while it is still being traced. -/
def MeetsCircle (tree : FileTree) (path : Text) : Prop :=
  ∃ rest, tree.trace (2 * tree.linkCount) []
    (if Path.isAbsolute path then .ofPlace [] else ⟨[], []⟩) (Path.names path) =
    .error (.circle rest)

/-- The real path of an absolute path has no points, and no links unless a circle was met. -/
theorem of_realPath (habsolute : Path.isAbsolute path = true) (h : tree.realPath path = .ok real) :
    real.IsProper ∧ (¬tree.MeetsCircle path → tree.IsReal real) := by
  have hstart := (IsReal.ofPlace_nil tree).start path
  rw [if_pos habsolute] at hstart
  have houtcome := outcome_trace (2 * tree.linkCount) [] hstart
    fun name (hn : name ∈ Path.names path) => Path.noSlash_of_mem_names hn
  unfold MeetsCircle
  rw [realPath, if_pos habsolute] at h
  rw [if_pos habsolute]
  cases htrace : tree.trace (2 * tree.linkCount) [] (.ofPlace []) (Path.names path) with
  | ok found =>
    rw [htrace] at h houtcome
    have hreal : tree.IsReal found := houtcome
    simp only at h
    rw [hreal.placeOf, ← hreal.eq_ofPlace] at h
    cases h
    exact ⟨hreal.isProper, fun _ => hreal⟩
  | error e =>
    rw [htrace] at h houtcome
    cases e with
    | faulty e => cases h
    | circle rest =>
      have hrest : Path.isAbsolute rest = true := houtcome
      have hproper := PlainPath.isProper_flat hrest
      cases h
      rw [absolute_eq ((Path.isAbsolute_iff_root rest).1 hrest), hproper.of_display]
      exact ⟨hproper, fun hcircle => absurd ⟨rest, rfl⟩ hcircle⟩

/-! ## Fixpoints -/

/-- Where no link stands, names are followed as they are. -/
theorem trace_of_isReal (links : Nat) (active : List PlainPath) {before : List Text}
    (hp : tree.IsReal ⟨[Path.slash], before ++ names⟩)
    (hclean : HasCleanNames ⟨[Path.slash], before ++ names⟩) :
    tree.trace links active ⟨[Path.slash], before⟩ names = .ok ⟨[Path.slash], before ++ names⟩ := by
  induction names generalizing before with
  | nil => rw [List.append_nil, trace_nil]
  | cons name rest ih =>
    have hname := hp.names name (by simp)
    have hsplit : before ++ name :: rest = (before ++ [name]) ++ rest := by simp
    have hnext : HasCleanNames ⟨[Path.slash], before ++ [name]⟩ := by
      refine ⟨hclean.1, fun x hx => hclean.2 x ?_⟩
      rw [hsplit]
      exact List.mem_append_left _ hx
    have hplace : tree.placeOf ⟨[Path.slash], before ++ [name]⟩ = (before ++ [name]).reverse := by
      rw [placeOf, if_neg (by simp), Place.follow_of_isPlain, List.append_nil]
      intro x hx
      refine hp.names x ?_
      rw [hsplit]
      exact List.mem_append_left _ hx
    have hlink : tree.link? (before ++ [name]).reverse = none := by
      refine hp.noLink _ (List.reverse_suffix.2 ?_)
      rw [hsplit]
      exact List.prefix_append _ _
    rw [hsplit] at hp hclean ⊢
    rw [trace_eq, traceNames, hname.notIdle, if_neg (by simp), if_neg hname.notAbove]
    simp only [PlainPath.child, hnext.checkPath, hplace, hlink]
    rw [← trace_eq]
    exact ih hp hclean

/-- A path without points and links is its own real path. -/
theorem realPath_display (h : tree.IsReal p) (hclean : HasCleanNames p) :
    tree.realPath p.display = .ok p := by
  have htrace :
      tree.trace (2 * tree.linkCount) [] (.ofPlace []) (Path.names p.display) = .ok p := by
    obtain ⟨root, names⟩ := p
    obtain rfl : root = [Path.slash] := h.root
    obtain ⟨k, hk⟩ := h.isProper.names_display
    rw [hk]
    clear hk
    induction k with
    | zero => exact trace_of_isReal _ _ h hclean
    | succ k ih => rwa [List.replicate_succ, List.cons_append, trace_idle Path.isIdle_nil]
  rw [realPath, if_pos h.isProper.isAbsolute_display, htrace]
  simp only
  rw [h.placeOf, ← h.eq_ofPlace]

end FileTree

end ImportRepair

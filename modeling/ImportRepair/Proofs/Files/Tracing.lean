import ImportRepair.Proofs.Files.Alphabet

/-!
# The real path of what a path leads to

Following a path name by name and tracing it link by link are two ways to find a place. They agree
wherever the first one finds something: tracing never meets a link that it is tracing already, since
the links on the way to the end of a link's target are fewer than those on the way through the link.

Results:
* `trace_of_follows`: tracing names that lead somewhere ends at the same place.
* `realPath_of_lookUp`: the real path of a path that leads to a node is the path of the node's
  place.
-/

namespace ImportRepair

/-! ## Places of plain paths -/

theorem Place.follow_append (place : Place) (xs ys : List Text) :
    place.follow (xs ++ ys) = (place.follow xs).follow ys := by
  induction xs generalizing place with
  | nil => rfl
  | cons x xs ih =>
    rw [List.cons_append, follow, follow]
    split
    · exact ih place
    · split
      · exact ih place.tail
      · exact ih (x :: place)

/-- No name of the path stands for nothing, and an absolute path has no double points. -/
def PlainPath.IsTidy (p : PlainPath) : Prop :=
  ∀ name ∈ p.names, Path.isIdle name = false ∧ (p.root ≠ [] → name ≠ Path.above)

namespace FileTree

variable {tree : FileTree}

theorem placeOf_child {p : PlainPath} {name : Text} (hi : Path.isIdle name = false)
    (ha : name ≠ Path.above) : tree.placeOf (p.child name) = name :: tree.placeOf p := by
  unfold placeOf PlainPath.child
  rw [Place.follow_append, Place.follow, hi, if_neg (by simp), if_neg ha, Place.follow]

theorem isTidy_child {p : PlainPath} (h : p.IsTidy) {name : Text} (hi : Path.isIdle name = false)
    (ha : name ≠ Path.above) : (p.child name).IsTidy := by
  intro x hx
  obtain hx | hx := List.mem_append.1 hx
  · exact h x hx
  · rw [List.mem_singleton.1 hx]
    exact ⟨hi, fun _ => ha⟩

theorem isTidy_above {p : PlainPath} (h : p.IsTidy) : p.above.IsTidy := by
  unfold PlainPath.above
  split
  · next hr =>
    intro x hx
    obtain hx | hx := List.mem_append.1 hx
    · exact h x hx
    · rw [List.mem_singleton.1 hx]
      exact ⟨Path.isIdle_above, fun hne => absurd hr.1 hne⟩
  · exact fun x hx => h x (List.dropLast_subset _ hx)

theorem placeOf_above {p : PlainPath} (h : p.IsTidy) :
    tree.placeOf p.above = (tree.placeOf p).tail := by
  unfold PlainPath.above
  split
  · unfold placeOf
    rw [Place.follow_append, Place.follow, Path.isIdle_above, if_neg (by simp), if_pos rfl,
      Place.follow]
  · next hr =>
    unfold placeOf PlainPath.parent
    obtain hnil | ⟨xs, x, hx⟩ := List.eq_nil_or_concat p.names
    · rw [hnil] at hr ⊢
      have hroot : p.root ≠ [] := fun hroot => hr ⟨hroot, Or.inl rfl⟩
      rw [if_neg hroot]
      rfl
    · rw [List.concat_eq_append] at hx
      have hmem : x ∈ p.names := by rw [hx]; simp
      obtain ⟨hi, ha⟩ := h x hmem
      have hne : x ≠ Path.above := by
        intro he
        by_cases hroot : p.root = []
        · exact hr ⟨hroot, Or.inr (by rw [hx, List.getLast?_concat, he])⟩
        · exact ha hroot he
      rw [hx, List.dropLast_concat, Place.follow_append]
      simp only [Place.follow, hi, Bool.false_eq_true, if_false, if_neg hne, List.tail_cons]

theorem isTidy_start {p : PlainPath} (hp : p.IsTidy) (target : Text) :
    (if Path.isAbsolute target then PlainPath.ofPlace [] else p).IsTidy := by
  split
  · intro x hx
    cases hx
  · exact hp

theorem placeOf_start (p : PlainPath) (target : Text) :
    tree.placeOf (if Path.isAbsolute target then PlainPath.ofPlace [] else p) =
      Place.startOf target (tree.placeOf p) := by
  unfold Place.startOf
  split <;> rfl

/-- The names of a path are clean, and it can be spelled. -/
def HasCleanNames (p : PlainPath) : Prop :=
  (∀ c ∈ p.root, c = Path.slash) ∧ ∀ name ∈ p.names, Path.IsClean name

theorem hasCleanNames_iff {p : PlainPath} :
    HasCleanNames p ↔ p.SpeltBy fun c => c ≠ 0 ∧ Path.isForbidden c = false := Iff.rfl

theorem HasCleanNames.checkPath {p : PlainPath} (h : HasCleanNames p) :
    checkPath p.display = .ok () :=
  checkPath_eq_ok_iff.2 ((hasCleanNames_iff.1 h).display fun _ ht => ht)

theorem HasCleanNames.child {p : PlainPath} (h : HasCleanNames p) {name : Text}
    (hn : Path.IsClean name) : HasCleanNames (p.child name) :=
  (hasCleanNames_iff.1 h).child hn

theorem HasCleanNames.above {p : PlainPath} (h : HasCleanNames p) : HasCleanNames p.above :=
  (hasCleanNames_iff.1 h).above Path.isClean_above

theorem HasCleanNames.start {p : PlainPath} (h : HasCleanNames p) (target : Text) :
    HasCleanNames (if Path.isAbsolute target then PlainPath.ofPlace [] else p) :=
  (hasCleanNames_iff.1 h).start target

/-! ## Links being traced -/

/-- The target of the link at a path leads somewhere, by the given number of links. -/
def LeadsBy (tree : FileTree) (link : PlainPath) (k : Nat) : Prop :=
  ∃ target p n, tree.node? (tree.placeOf link) = some (.link target) ∧
    Follows tree k (Place.startOf target (tree.placeOf link).tail) (Path.names target) p n

theorem LeadsBy.unique {l l' : PlainPath} {k k' : Nat} (hp : tree.placeOf l = tree.placeOf l')
    (h : tree.LeadsBy l k) (h' : tree.LeadsBy l' k') : k = k' := by
  obtain ⟨t, p, n, ht, hf⟩ := h
  obtain ⟨t', p', n', ht', hf'⟩ := h'
  rw [hp, ht'] at ht
  cases ht
  rw [hp] at hf
  exact (hf.unique hf').1

/-- The links that are being traced while `k` links are left on the way: each leads by at least as
many, and they stand at different places. -/
structure Traced (tree : FileTree) (active : List PlainPath) (k : Nat) : Prop where
  leads : ∀ l ∈ active, ∃ m, k ≤ m ∧ tree.LeadsBy l m
  distinct : (active.map tree.placeOf).Nodup

theorem Traced.mono {active : List PlainPath} {j k : Nat} (h : tree.Traced active k) (hj : j ≤ k) :
    tree.Traced active j := by
  refine ⟨fun l hl => ?_, h.distinct⟩
  obtain ⟨m, hm, hlead⟩ := h.leads l hl
  exact ⟨m, by omega, hlead⟩

/-- A link that leads by fewer links than are left is not being traced. -/
theorem Traced.placeOf_not_mem {active : List PlainPath} {j k : Nat} {l : PlainPath}
    (h : tree.Traced active k) (hl : tree.LeadsBy l j) (hj : j < k) :
    tree.placeOf l ∉ active.map tree.placeOf := by
  intro hmem
  obtain ⟨a, ha, hp⟩ := List.mem_map.1 hmem
  obtain ⟨m, hm, hlead⟩ := h.leads a ha
  have := hlead.unique hp hl
  omega

theorem Traced.cons {active : List PlainPath} {j k : Nat} {l : PlainPath}
    (h : tree.Traced active k) (hl : tree.LeadsBy l j) (hj : j < k) :
    tree.Traced (l :: active) j := by
  refine ⟨?_, ?_⟩
  · rw [List.forall_mem_cons]
    exact ⟨⟨j, le_rfl, hl⟩, (h.mono hj.le).leads⟩
  · rw [List.map_cons, List.nodup_cons]
    exact ⟨h.placeOf_not_mem hl hj, h.distinct⟩

/-- There are no more links at different places than the tree has. -/
theorem length_le_linkCount {places : List Place} (hd : places.Nodup)
    (h : ∀ p ∈ places, ∃ target, tree.node? p = some (.link target)) :
    places.length ≤ tree.linkCount := by
  rw [linkCount, ← List.length_map Prod.fst]
  refine (List.subperm_of_subset hd ?_).length_le
  intro p hp
  obtain ⟨target, ht⟩ := h p hp
  have hne : p ≠ [] := by
    rintro rfl
    cases ht
  rw [node?, if_neg hne] at ht
  have hmem : (p, Node.link target) ∈ tree.nodes := by
    rw [List.lookup_eq_some_iff] at ht
    obtain ⟨l₁, l₂, heq, _⟩ := ht
    rw [heq]
    simp
  exact List.mem_map.2 ⟨_, List.mem_filter.2 ⟨hmem, rfl⟩, rfl⟩

theorem Traced.length_le {active : List PlainPath} {k : Nat} (h : tree.Traced active k) :
    active.length ≤ tree.linkCount := by
  rw [← List.length_map tree.placeOf]
  apply length_le_linkCount h.distinct
  intro p hp
  obtain ⟨l, hl, rfl⟩ := List.mem_map.1 hp
  obtain ⟨_, _, target, _, _, ht, _⟩ := h.leads l hl
  exact ⟨target, ht⟩

/-! ## Tracing -/

/-- What tracing does with a link that it meets, while others are being traced. -/
def traceLink (tree : FileTree) (links : Nat) (active : List PlainPath) (link : PlainPath)
    (target : Text) : Except Impasse PlainPath :=
  match links with
  | 0 => .error (.circle link.display)
  | links + 1 =>
    if link ∈ active then .error (.circle link.display)
    else
      let start := if Path.isAbsolute target then PlainPath.ofPlace [] else link.parent
      trace tree links (link :: active) start (Path.names target)

theorem trace_eq (links : Nat) (active : List PlainPath) :
    tree.trace links active = tree.traceNames (tree.traceLink links active) := by
  cases links <;> rfl

theorem trace_nil (links : Nat) (active : List PlainPath) (current : PlainPath) :
    tree.trace links active current [] = .ok current := by
  rw [trace_eq, traceNames]

theorem trace_idle {links : Nat} {active : List PlainPath} {current : PlainPath} {name : Text}
    {rest : List Text} (h : Path.isIdle name = true) :
    tree.trace links active current (name :: rest) = tree.trace links active current rest := by
  rw [trace_eq, traceNames, if_pos h]

theorem trace_above {links : Nat} {active : List PlainPath} {current : PlainPath}
    {rest : List Text} :
    tree.trace links active current (Path.above :: rest) =
      tree.trace links active current.above rest := by
  rw [trace_eq, traceNames, Path.isIdle_above, if_neg (by simp), if_pos rfl]

/-- The effect of a name that has to be looked up on tracing. -/
theorem trace_step {links : Nat} {active : List PlainPath} {current : PlainPath} {name : Text}
    {rest : List Text} (hs : IsStep name) (hc : HasCleanNames current) (hn : Path.IsClean name) :
    tree.trace links active current (name :: rest) =
      match tree.link? (name :: tree.placeOf current) with
      | none => tree.trace links active (current.child name) rest
      | some target =>
        match tree.traceLink links active (current.child name) target with
        | .ok path => tree.trace links active path rest
        | .error e => .error (e.before rest) := by
  rw [trace_eq, traceNames, hs.1, if_neg (by simp), if_neg hs.2.1]
  cases hl : tree.link? (name :: tree.placeOf current) with
  | none => simp only [(hc.child hn).checkPath, placeOf_child hs.1 hs.2.1, hl]
  | some target =>
    cases ht : tree.traceLink links active (current.child name) target <;>
      simp only [(hc.child hn).checkPath, placeOf_child hs.1 hs.2.1, hl, ht]

theorem parent_child (p : PlainPath) (name : Text) : (p.child name).parent = p := by
  simp [PlainPath.parent, PlainPath.child]

/-- Tracing names that lead somewhere ends at the same place. The induction is on the
links on the way, which are fewer on the way to the end of a link's target, and for one
number of links on the names. -/
theorem trace_of_follows (hl : tree.HasCleanLinks) {k links : Nat} {active : List PlainPath}
    {d p : Place} {current : PlainPath} {names : List Text} {n : Node}
    (h : Follows tree k d names p n) (hd : tree.placeOf current = d) (ht : current.IsTidy)
    (hc : HasCleanNames current) (hnames : ∀ name ∈ names, Path.IsClean name)
    (ha : tree.Traced active k) (hlinks : tree.linkCount ≤ links + active.length) :
    ∃ real, tree.trace links active current names = .ok real ∧ tree.placeOf real = p ∧
      real.IsTidy ∧ HasCleanNames real := by
  induction k using Nat.strong_induction_on generalizing links active d p current names n with
  | _ k ihk =>
  induction names generalizing d current with
  | nil =>
    cases h
    exact ⟨current, trace_nil .., hd, ht, hc⟩
  | cons name rest ih =>
    obtain ⟨hname, hrest⟩ := List.forall_mem_cons.1 hnames
    cases h with
    | idle hi hf =>
      rw [trace_idle hi]
      exact ih hf hd ht hc hrest
    | above hf =>
      rw [trace_above]
      exact ih hf (by rw [placeOf_above ht, hd]) (isTidy_above ht) hc.above hrest
    | into hs hn hf =>
      rw [trace_step hs hc hname, hd, link?, hn]
      exact ih hf (by rw [placeOf_child hs.1 hs.2.1, hd]) (isTidy_child ht hs.1 hs.2.1)
        (hc.child hname) hrest
    | file hs hn =>
      rw [trace_step hs hc hname, hd, link?, hn]
      exact ⟨current.child name, trace_nil .., by rw [placeOf_child hs.1 hs.2.1, hd],
        isTidy_child ht hs.1 hs.2.1, hc.child hname⟩
    | @link j _ _ target _ _ _ hs hn hf =>
      rw [trace_step hs hc hname, hd, link?, hn]
      simp only
      have htarget : ∀ i q m, i < j + 1 →
          Follows tree i (Place.startOf target d) (Path.names target) q m →
          ∃ path, tree.traceLink links active (current.child name) target = .ok path ∧
            tree.placeOf path = q ∧ path.IsTidy ∧ HasCleanNames path := by
        intro i q m hi hf
        have hplace : tree.placeOf (current.child name) = name :: d := by
          rw [placeOf_child hs.1 hs.2.1, hd]
        have hlead : tree.LeadsBy (current.child name) i :=
          ⟨target, q, m, by rw [hplace, hn], by rw [hplace, List.tail_cons]; exact hf⟩
        have hnot : current.child name ∉ active := fun hmem =>
          ha.placeOf_not_mem hlead hi (List.mem_map_of_mem hmem)
        have hle := (ha.cons hlead hi).length_le
        rw [List.length_cons] at hle
        obtain ⟨more, rfl⟩ : ∃ more, links = more + 1 := ⟨links - 1, by omega⟩
        rw [traceLink, if_neg hnot, parent_child]
        exact ihk i hi hf (by rw [placeOf_start, hd]) (isTidy_start ht target) (hc.start target)
          (fun x hx => Path.isClean_of_mem_names (hl _ _ hn) hx) (ha.cons hlead hi)
          (by rw [List.length_cons]; omega)
      by_cases hr : rest = []
      · subst hr
        rw [List.append_nil] at hf
        obtain ⟨path, hpath, hreal⟩ := htarget j p n (by omega) hf
        rw [hpath]
        exact ⟨path, trace_nil .., hreal⟩
      · obtain ⟨i, i', q, rfl, h1, h2⟩ := hf.split hr
        obtain ⟨path, hpath, hq, ht', hc'⟩ := htarget i q .directory (by omega) h1
        rw [hpath]
        exact ihk i' (by omega) h2 hq ht' hc' hrest (ha.mono (by omega)) hlinks

/-! ## Real paths -/

theorem traced_nil (k : Nat) : tree.Traced [] k :=
  ⟨by simp, by simp⟩

/-- What a path leads to, and how. -/
theorem follows_of_lookUp {path : Text} {p : Place} {n : Node} (h : tree.lookUp path = .ok (p, n)) :
    path ≠ [] ∧ Path.byteLength path < Path.maxPath ∧
      ∃ k ≤ maxLinks, Follows tree k (tree.start path) (Path.names path) p n := by
  unfold lookUp locate at h
  by_cases hnil : path = []
  · rw [if_pos hnil] at h
    cases h
  by_cases hlong : Path.maxPath ≤ Path.byteLength path
  · rw [if_neg hnil, if_pos hlong] at h
    cases h
  rw [if_neg hnil, if_neg hlong] at h
  refine ⟨hnil, by omega, walk_eq_ok_iff.1 ?_⟩
  revert h
  split
  · next heq =>
    intro h
    cases h
    exact heq
  · intro h
    cases h
  · intro h
    cases h

theorem realPath_of_lookUp (hl : tree.HasCleanLinks) {path : Text} {p : Place} {n : Node}
    (hclean : Path.IsClean path) (h : tree.lookUp path = .ok (p, n)) :
    tree.realPath path = .ok (.ofPlace p) := by
  obtain ⟨_, _, k, _, hf⟩ := follows_of_lookUp h
  have hempty : (⟨[], []⟩ : PlainPath).IsTidy := by
    intro x hx
    cases hx
  have hcleanEmpty : HasCleanNames ⟨[], []⟩ := ⟨by simp, by simp⟩
  have hlinks : tree.linkCount ≤ 2 * tree.linkCount + ([] : List PlainPath).length := by
    simp
    omega
  have hstart : tree.placeOf (if Path.isAbsolute path then .ofPlace [] else ⟨[], []⟩) =
      tree.start path := placeOf_start _ path
  obtain ⟨real, hreal, hp, _⟩ := trace_of_follows hl hf hstart (isTidy_start hempty path)
    (hcleanEmpty.start path) (fun x hx => Path.isClean_of_mem_names hclean hx) (traced_nil k) hlinks
  rw [realPath, hreal]
  simp only
  rw [hp]

end FileTree

end ImportRepair

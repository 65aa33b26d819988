import ImportRepair.Proofs.Settings.Safety
import ImportRepair.Proofs.Value.Ways

/-!
# Paths in settings are settled once they are resolved

A path at the end of a way of keys gives way to its real path, and nothing else is touched. The real
path is taken from the root by itself, so resolving once more finds the same, unless links run in a
circle on the way to it.

Results:
* `Settings.run_resolveAt`: the end of a way is looked for and put there, or the
  failure to find it comes up.
* `Settings.along?_replaceAlong`: the ways that are not touched.
* `Settings.settles_realPathFrom`: a path that was found is found again as itself.
* `Settings.resolvePath_settles`: what resolving leaves, and that it leaves it
  when it is done once more.
-/

namespace ImportRepair

namespace Settings

open Value

variable {es inner : Entries} {tree : FileTree} {root path real key t : Text}
  {way rest : List Text} {v w : World} {value config config' : Value}

/-! ## The end of a way -/

/-- The entries with a text put at the end of a way of keys, each but the last of
which leads to a mapping. -/
def replaceAlong : List Text → Text → Entries → Entries
  | [], _, es => es
  | [key], t, es => es.set key (.text t)
  | key :: next :: rest, t, es =>
    es.set key (.map (replaceAlong (next :: rest) t (sectionOf es key)))

/-- The entries with the path that was found for the end of a way of keys. -/
def withPathAlong (way : List Text) (path? : Option Text) (es : Entries) : Entries :=
  match path? with
  | none => es
  | some t => replaceAlong way t es

theorem along?_singleton (es : Entries) (key : Text) :
    (map es).along? [.text key] = es.get? key := by
  rw [along?_map_cons]
  show (es.get? key).bind _ = _
  cases es.get? key <;> rfl

theorem along?_cons_of_get? (h : es.get? key = some (.map inner)) (q : List Value) :
    (map es).along? (.text key :: q) = (map inner).along? q := by
  rw [along?_map_cons]
  show (es.get? key).bind _ = _
  rw [h]
  rfl

/-- A way of several keys that leads somewhere leads through a mapping. -/
theorem exists_get?_of_along? {k : Value} {q : List Value}
    (h : (map es).along? (.text key :: k :: q) = some value) :
    ∃ inner, es.get? key = some (.map inner) ∧ (map inner).along? (k :: q) = some value := by
  rw [along?_map_cons] at h
  obtain ⟨u, hu, hrest⟩ := Option.bind_eq_some_iff.1 h
  cases hentries : u.entries? with
  | none =>
    rw [along?_cons_of_leaf hentries] at hrest
    cases hrest
  | some inner =>
    obtain rfl := eq_map_of_entries? hentries
    exact ⟨inner, hu, hrest⟩

/-- A mapping on the way is gone through, and put back as it comes out. -/
theorem resolveAt_through (root : Text) (way : List Text) (hne : rest ≠ [])
    (h : es.get? key = some (.map inner)) :
    resolveAt root way (key :: rest) es =
      (resolveAt root way rest inner >>= fun inner => pure (es.set key (.map inner))) := by
  rw [resolveAt]
  · simp only [h]
  · exact hne

/-- Without a mapping on the way, there is only a record. -/
theorem run_resolveAt_broken (root : Text) (way : List Text) (hne : rest ≠ [])
    (h : ∀ inner, es.get? key ≠ some (.map inner)) (w : World) :
    ∃ v, (resolveAt root way (key :: rest) es).run w = .ok es v ∧ World.Kept w v := by
  rw [resolveAt]
  · split
    · next inner hinner => exact absurd hinner (h inner)
    · exact ⟨_, rfl, World.kept_note ..⟩
  · exact hne

/-- The end of a way is looked for and put there, or the failure to find it comes up. The induction
is on the keys that are left. -/
theorem run_resolveAt (root : Text) (way : List Text) (hne : rest ≠ []) (es : Entries) (w : World) :
    match resolveValue w.tree root (((map es).along? (rest.map .text)).getD .null) with
    | .error e => (resolveAt root way rest es).run w = .error e w
    | .ok path? => ∃ v, (resolveAt root way rest es).run w = .ok (withPathAlong rest path? es) v ∧
        World.Kept w v := by
  induction rest generalizing es with
  | nil => exact absurd rfl hne
  | cons key rest ih =>
    cases rest with
    | nil =>
      rw [List.map_singleton, along?_singleton, resolveAt, EStateM.run_bind, EStateM.run_get]
      simp only
      cases resolveValue w.tree root ((es.get? key).getD .null) with
      | error e => rfl
      | ok path? =>
        cases path? with
        | none => exact ⟨w, rfl, .refl w⟩
        | some path => exact ⟨_, rfl, World.kept_note ..⟩
    | cons next rest =>
      by_cases hmap : ∃ inner, es.get? key = some (.map inner)
      · obtain ⟨inner, hinner⟩ := hmap
        rw [List.map_cons, along?_cons_of_get? hinner,
          resolveAt_through root way (List.cons_ne_nil _ _) hinner]
        have hrun := ih (List.cons_ne_nil _ _) inner
        cases hpath : resolveValue w.tree root
          (((map inner).along? ((next :: rest).map .text)).getD .null) with
        | error e =>
          rw [hpath] at hrun
          exact run_bind_of_error hrun
        | ok path? =>
          rw [hpath] at hrun
          obtain ⟨v, hv, hkept⟩ := hrun
          refine ⟨v, ?_, hkept⟩
          rw [run_bind_of_ok hv]
          cases path? with
          | none =>
            show EStateM.Result.ok (es.set key (.map inner)) v = .ok es v
            rw [Entries.set, Entries.put_of_find? hinner]
          | some t =>
            show _ = EStateM.Result.ok
              (es.set key (.map (replaceAlong (next :: rest) t (sectionOf es key)))) v
            rw [sectionOf_eq hinner]
            rfl
      · have hnone : (map es).along? ((key :: next :: rest).map .text) = none := by
          rw [Option.eq_none_iff_forall_ne_some]
          intro value hvalue
          obtain ⟨inner, hinner, -⟩ := exists_get?_of_along? hvalue
          exact hmap ⟨inner, hinner⟩
        rw [hnone]
        exact run_resolveAt_broken root way (List.cons_ne_nil _ _)
          (fun inner h => hmap ⟨inner, h⟩) w

/-! ## What is not touched -/

/-- A text that is put at the end of a way that leads somewhere is found there. -/
theorem along?_replaceAlong_self (h : (map es).along? (way.map .text) = some value) (hne : way ≠ [])
    (t : Text) :
    (map (replaceAlong way t es)).along? (way.map .text) = some (.text t) := by
  induction way generalizing es with
  | nil => exact absurd rfl hne
  | cons key way ih =>
    cases way with
    | nil =>
      rw [List.map_singleton, replaceAlong, along?_cons_set, if_pos (text_sameKey.2 rfl)]
      rfl
    | cons next way =>
      obtain ⟨inner, hinner, hrest⟩ := exists_get?_of_along? h
      rw [List.map_cons, replaceAlong, along?_cons_set, if_pos (text_sameKey.2 rfl),
        sectionOf_eq hinner]
      exact ih hrest (List.cons_ne_nil _ _)

/-- What stands on no way to it and at no part of it is not touched. -/
theorem along?_replaceAlong (h : (map es).along? (way.map .text) = some value)
    (hleaf : value.entries? = none) (t : Text) {q : List Value} (hq : ¬q <+: way.map .text) :
    (map (replaceAlong way t es)).along? q = (map es).along? q := by
  induction way generalizing es q with
  | nil => rfl
  | cons key way ih =>
    cases q with
    | nil => exact absurd List.nil_prefix hq
    | cons k q =>
      by_cases hk : (text key).sameKey k = true
      · obtain rfl := text_sameKey.1 hk
        rw [List.map_cons, List.prefix_cons_inj] at hq
        cases way with
        | nil =>
          rw [List.map_singleton, along?_singleton] at h
          rw [replaceAlong, along?_cons_set, if_pos hk]
          cases q with
          | nil => exact absurd List.nil_prefix hq
          | cons k q =>
            rw [along?_cons_of_leaf rfl, along?_map_cons]
            show none = (es.get? key).bind _
            rw [h]
            exact (along?_cons_of_leaf hleaf k q).symm
        | cons next way =>
          obtain ⟨inner, hinner, hrest⟩ := exists_get?_of_along? h
          rw [replaceAlong, along?_cons_set, if_pos hk, sectionOf_eq hinner,
            along?_cons_of_get? hinner]
          exact ih hrest hq
      · cases way with
        | nil => rw [replaceAlong, along?_cons_set, if_neg hk]
        | cons next way => rw [replaceAlong, along?_cons_set, if_neg hk]

/-- The mappings on the way to it stay mappings. -/
theorem hasMapping_replaceAlong (h : (map es).along? (way.map .text) = some value) (t : Text)
    {q : List Value} (hq : q <+: way.map .text) (hne : q ≠ way.map .text) :
    (map (replaceAlong way t es)).HasMapping q := by
  induction way generalizing es q with
  | nil => exact absurd (List.prefix_nil.1 hq) hne
  | cons key way ih =>
    cases q with
    | nil => exact hasMapping_map _
    | cons k q =>
      rw [List.map_cons, List.cons_prefix_cons] at hq
      obtain ⟨rfl, hq⟩ := hq
      have hne' : q ≠ way.map .text := fun heq => hne (by rw [heq, List.map_cons])
      cases way with
      | nil => exact absurd (List.prefix_nil.1 hq) hne'
      | cons next way =>
        obtain ⟨inner, hinner, hrest⟩ := exists_get?_of_along? h
        unfold HasMapping
        rw [replaceAlong, along?_cons_set, if_pos (text_sameKey.2 rfl), sectionOf_eq hinner]
        exact ih hrest hq hne'

/-- Putting a text where it stands already changes nothing. -/
theorem replaceAlong_of_along? (h : (map es).along? (way.map .text) = some (.text t)) :
    replaceAlong way t es = es := by
  induction way generalizing es with
  | nil => rfl
  | cons key way ih =>
    cases way with
    | nil =>
      rw [List.map_singleton, along?_singleton] at h
      exact Entries.put_of_find? h
    | cons next way =>
      obtain ⟨inner, hinner, hrest⟩ := exists_get?_of_along? h
      rw [replaceAlong, sectionOf_eq hinner, ih hrest]
      exact Entries.put_of_find? hinner

/-! ## Paths that were found -/

/-- A path that is taken from a root. -/
def pathFrom (root path : Text) : Text := ((PlainPath.of root).append (PlainPath.of path)).display

theorem isAbsolute_pathFrom (h : Path.isAbsolute root = true) (path : Text) :
    Path.isAbsolute (pathFrom root path) = true := by
  have hslash : ∀ t : Text, ∀ c ∈ (PlainPath.of t).root, c = Path.slash :=
    fun _ _ hc => List.eq_of_mem_replicate hc
  have hroot := (Path.isAbsolute_iff_root root).1 h
  refine PlainPath.isAbsolute_display_of_root ?_ ?_
  · unfold PlainPath.append
    split <;> assumption
  · unfold PlainPath.append
    split
    · exact hslash root
    · exact hslash path

/-- A path that was found from an absolute root has no points. If no circle of links was met on the
way to it, there is no link on it either, and it is found again as itself. -/
theorem settles_realPathFrom (hroot : Path.isAbsolute root = true)
    (h : realPathFrom tree root path = .ok real) :
    (∀ name ∈ Path.names real, name ≠ Path.here ∧ name ≠ Path.above) ∧
      (¬tree.MeetsCircle (pathFrom root path) →
        (∃ place : Place, real = place.path ∧ tree.HasNoLink place) ∧
          realPathFrom tree root real = .ok real) := by
  rw [realPathFrom] at h
  split at h
  · cases h
  next found hfound =>
  split at h
  · cases h
  next hcheck =>
  split at h
  · cases h
  next hcircle =>
  cases h
  have hclean := FileTree.checkPath_eq_ok_iff.1 hcheck
  obtain ⟨hproper, hreal⟩ := FileTree.of_realPath (isAbsolute_pathFrom hroot path) hfound
  refine ⟨hproper.noPoints, fun hfree => ?_⟩
  have hreal := hreal hfree
  refine ⟨⟨found.names.reverse, ?_, hreal.noLink⟩, ?_⟩
  · conv_lhs => rw [hreal.eq_ofPlace, PlainPath.display_ofPlace]
    rfl
  · have hself : pathFrom root found.display = found.display := by
      rw [pathFrom, hproper.of_display, PlainPath.append, if_neg (by simp [hreal.root])]
    have hnames : FileTree.HasCleanNames found :=
      hproper.of_display ▸ FileTree.hasCleanNames_of hclean
    have hagain : tree.realPath ((PlainPath.of root).append (PlainPath.of found.display)).display =
        .ok found :=
      (congrArg tree.realPath hself).trans (FileTree.realPath_display hreal hnames)
    simp only [realPathFrom, hagain, hcheck, if_neg hcircle]

/-! ## Resolving -/

/-- What resolving the path at the end of a way of keys leaves. -/
structure IsResolvedAlong (tree : FileTree) (root : Text) (way : List Value)
    (config config' : Value) : Prop where
  /-- What stands on no way to the path and at no part of it is not touched. -/
  elsewhere : ∀ q, ¬q <+: way → config'.along? q = config.along? q
  /-- The mappings on the way stay mappings. -/
  within : ∀ q, q <+: way → q ≠ way → config.HasMapping q → config'.HasMapping q
  /-- A path gives way to its real path, which is absolute and has no points. There is no link on
  it, unless a circle of links was met. -/
  replaced : ∀ path, path ≠ [] → config.along? way = some (.text path) →
    ∃ real, config'.along? way = some (.text real) ∧ realPathFrom tree root path = .ok real ∧
      Path.isAbsolute real = true ∧
      (∀ name ∈ Path.names real, name ≠ Path.here ∧ name ≠ Path.above) ∧
      (¬tree.MeetsCircle (pathFrom root path) → ∃ place : Place, real = place.path ∧
        tree.HasNoLink place)
  /-- Without a path nothing changes. -/
  unset : (∀ path, path ≠ [] → config.along? way ≠ some (.text path)) → config' = config

theorem isResolvedAlong_replaceAlong (hroot : Path.isAbsolute root = true) (hne : way ≠ [])
    (h : (map es).along? (way.map .text) = some (.text path)) (hpath : path ≠ [])
    (hreal : realPathFrom tree root path = .ok real) :
    IsResolvedAlong tree root (way.map .text) (.map es) (.map (replaceAlong way real es)) where
  elsewhere := fun _ hq => along?_replaceAlong h rfl real hq
  within := fun _ hq hne _ => hasMapping_replaceAlong h real hq hne
  replaced := by
    intro path' _ hpath'
    rw [h] at hpath'
    cases hpath'
    obtain ⟨hpoints, hfree⟩ := settles_realPathFrom hroot hreal
    exact ⟨real, along?_replaceAlong_self h hne real, hreal, (of_realPathFrom hreal).2, hpoints,
      fun hcircle => (hfree hcircle).1⟩
  unset := fun hunset => absurd h (hunset path hpath)

/-- Without a path at the end of the way, resolving changes nothing. -/
theorem isResolvedAlong_self
    (hunset : (((map es).along? (way.map .text)).getD .null).isTruthy = false) :
    IsResolvedAlong tree root (way.map .text) (.map es) (.map es) where
  elsewhere := fun _ _ => rfl
  within := fun _ _ _ h => h
  replaced := by
    intro path hpath h
    rw [h] at hunset
    exact absurd hunset (by simpa [isTruthy] using hpath)
  unset := fun _ => rfl

/-- Resolving in a mapping is resolving in its entries. -/
theorem of_resolvePathIn (h : (resolvePathIn root way config).run w = .ok config' v) :
    ∃ es path?, config = .map es ∧ way ≠ [] ∧
      resolveValue w.tree root (((map es).along? (way.map .text)).getD .null) = .ok path? ∧
      config' = .map (withPathAlong way path? es) ∧ World.Kept w v := by
  cases config with
  | map es =>
    rw [resolvePathIn, map_eq_pure_bind] at h
    obtain ⟨es', u, hrun, h⟩ := run_bind_eq_ok.1 h
    cases h
    have hne : way ≠ [] := by
      rintro rfl
      cases hrun
    have hresolve := run_resolveAt root way hne es w
    cases hpath : resolveValue w.tree root (((map es).along? (way.map .text)).getD .null) with
    | error e =>
      rw [hpath] at hresolve
      rw [resolvePath, hresolve] at hrun
      cases hrun
    | ok path? =>
      rw [hpath] at hresolve
      obtain ⟨u, hu, hkept⟩ := hresolve
      rw [resolvePath, hu] at hrun
      cases hrun
      exact ⟨es, path?, rfl, hne, hpath, rfl, hkept⟩
  | _ => cases h

theorem run_resolvePathIn (hne : way ≠ []) {path? : Option Text}
    (h : resolveValue w.tree root (((map es).along? (way.map .text)).getD .null) = .ok path?) :
    ∃ v, (resolvePathIn root way (.map es)).run w = .ok (.map (withPathAlong way path? es)) v := by
  have hresolve := run_resolveAt root way hne es w
  rw [h] at hresolve
  obtain ⟨v, hv, -⟩ := hresolve
  refine ⟨v, ?_⟩
  rw [resolvePathIn, map_eq_pure_bind, resolvePath, run_bind_of_ok hv]
  rfl

/-- Resolving the path at the end of a way of keys replaces it by its real path, from an absolute
root, and touches nothing else. Unless a circle of links was met on the way to the path, resolving
once more changes nothing. -/
theorem resolvePath_settles (hroot : Path.isAbsolute root = true)
    (h : (resolvePathIn root way config).run w = .ok config' v) :
    World.Kept w v ∧ IsResolvedAlong w.tree root (way.map .text) config config' ∧
      ((∀ path, path ≠ [] → config.along? (way.map .text) = some (.text path) →
          ¬w.tree.MeetsCircle (pathFrom root path)) →
        ∃ x, (resolvePathIn root way config').run v = .ok config' x) := by
  obtain ⟨es, path?, rfl, hne, hfound, rfl, hkept⟩ := of_resolvePathIn h
  refine ⟨hkept, ?_⟩
  obtain ⟨hunset, rfl⟩ | ⟨path, real, hvalue, hpath, hreal, rfl⟩ := resolveValue_eq_ok_iff.1 hfound
  · refine ⟨isResolvedAlong_self hunset, fun _ => ?_⟩
    exact run_resolvePathIn hne (resolveValue_eq_ok_iff.2 (.inl ⟨hunset, rfl⟩))
  · have halong : (map es).along? (way.map .text) = some (.text path) := by
      cases hfirst : (map es).along? (way.map .text) with
      | none =>
        rw [hfirst] at hvalue
        cases hvalue
      | some value =>
        rw [hfirst] at hvalue
        exact congrArg some hvalue
    refine ⟨isResolvedAlong_replaceAlong hroot hne halong hpath hreal, fun hfree => ?_⟩
    -- the path that was put is found again, and stands there already
    obtain ⟨-, hagain⟩ := (settles_realPathFrom hroot hreal).2 (hfree path hpath halong)
    have hself := along?_replaceAlong_self halong hne real
    have hsome : real ≠ [] := by
      rintro rfl
      cases (of_realPathFrom hreal).2
    have hagain' : resolveValue v.tree root
        (((map (replaceAlong way real es)).along? (way.map .text)).getD .null) =
        .ok (some real) := by
      rw [hself, hkept.tree.resolveValue]
      exact resolveValue_eq_ok_iff.2 (.inr ⟨real, real, rfl, hsome, hagain, rfl⟩)
    obtain ⟨x, hx⟩ := run_resolvePathIn hne hagain'
    rw [withPathAlong, replaceAlong_of_along? hself] at hx
    exact ⟨x, hx⟩

/-- A log file that is given by a link, by way of the directory above it. -/
theorem resolvePath_settles_link :
    let w := World.new ⟨[], [(["l"], .link "d"), (["d"], .directory)], []⟩
      Journal.defaultThreshold [] {}
    let way : List Text := ["logging", "log_file"]
    let config :=
      Value.map [(.text "logging", table [("log_file", .text "l/../l/x"), ("level", .text "INFO")])]
    ∃ config' v x, (resolvePathIn "/" way config).run w = .ok config' v ∧
      IsResolvedAlong w.tree "/" (way.map .text) config config' ∧
      (resolvePathIn "/" way config').run v = .ok config' x := by
  intro w way config
  have hreturns : returns ((resolvePathIn "/" way config).run w) = true := by decide +kernel
  obtain ⟨config', v, hrun⟩ := exists_of_returns hreturns
  obtain ⟨-, hresolved, hagain⟩ := resolvePath_settles (by decide) hrun
  have hfree : ¬w.tree.MeetsCircle (pathFrom "/" "l/../l/x") := by
    have htrace :
        (w.tree.trace (2 * w.tree.linkCount) [] (.ofPlace [])
          (Path.names (pathFrom "/" "l/../l/x"))).isOk =
        true := by
      decide +kernel
    rintro ⟨rest, hcircle⟩
    rw [if_pos (by decide)] at hcircle
    rw [hcircle] at htrace
    cases htrace
  obtain ⟨x, hx⟩ := hagain fun path _ hpath => by
    obtain rfl : (("l/../l/x" : Text)) = path := Value.text.inj (Option.some.inj hpath)
    exact hfree
  exact ⟨config', v, x, hrun, hresolved, hx⟩

/-- After a link to itself the names are kept as they are, with a link among them, which
resolving once more follows. -/
theorem not_resolvePath_settles_circle :
    let tree : FileTree :=
      ⟨[], [(["loop"], .link "loop"), (["d"], .directory), (["dl"], .link "d")], []⟩
    let w := World.new tree Journal.defaultThreshold [] {}
    let config := Value.map [(.text "p", .text "loop/../dl")]
    tree.link? ["dl"] = some "d" ∧
      ∃ once v twice x, (resolvePathIn "/" ["p"] config).run w = .ok once v ∧
        (resolvePathIn "/" ["p"] once).run v = .ok twice x ∧
        once.along? [.text "p"] = some (.text "/dl") ∧
        twice.along? [.text "p"] = some (.text "/d") := by
  intro tree w config
  refine ⟨rfl, ?_⟩
  have htexts : (match (resolvePathIn "/" ["p"] config).run w with
      | .ok once v =>
        match (resolvePathIn "/" ["p"] once).run v with
        | .ok twice _ =>
          ((once.along? [.text "p"]).bind text?, (twice.along? [.text "p"]).bind text?)
        | .error _ _ => (none, none)
      | .error _ _ => (none, none)) = (some ("/dl" : Text), some ("/d" : Text)) := by decide +kernel
  have htext : ∀ {v : Value} {t : Text}, v.text? = some t → v = .text t := by
    intro v t h
    cases v <;> cases h
    rfl
  split at htexts
  · next once v honce =>
    split at htexts
    · next twice x htwice =>
      obtain ⟨hfirst, hsecond⟩ := Prod.mk.inj htexts
      obtain ⟨first, hfirst, ht⟩ := Option.bind_eq_some_iff.1 hfirst
      obtain ⟨second, hsecond, ht'⟩ := Option.bind_eq_some_iff.1 hsecond
      rw [htext ht] at hfirst
      rw [htext ht'] at hsecond
      exact ⟨once, v, twice, x, honce, htwice, hfirst, hsecond⟩
    · cases htexts
  · cases htexts

end Settings

end ImportRepair

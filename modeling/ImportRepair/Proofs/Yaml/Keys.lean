import ImportRepair.Yaml.Document

/-!
# Keys of mappings that are read

A mapping that is read from a document has each key once: an entry for a key that is there already
only gives it another value. This holds for the contents of nodes, whatever collection is filled
next, and it stays when values are made of them.

Results:
* `Yaml.Contents.HasKeys.put`: an entry that is put keeps the keys apart.
* `Yaml.Graph.sound_of_contents`: the contents of all nodes have their keys apart.
* `Yaml.Contents.isKeyed_value`: so have the values that are made of them.
* `Yaml.isKeyed_of_readBytes`: the value of a document has each key once.
-/

namespace ImportRepair

/-- No key stands twice. -/
def Entries.Distinct (es : Entries) : Prop := es.Pairwise fun e e' => ¬e.1.sameKey e'.1 = true

/-- No key stands twice in a mapping, nor in the mappings in it, down to a level. -/
def Value.IsKeyed : (levels : Nat) → Value → Prop
  | levels + 1, .map entries => Entries.Distinct entries ∧ ∀ e ∈ entries, e.2.IsKeyed levels
  | _, _ => True

theorem Value.isKeyed_of_entries? {v : Value} (h : v.entries? = none) (levels : Nat) :
    v.IsKeyed levels := by
  cases levels with
  | zero => trivial
  | succ levels => cases v <;> trivial

@[simp] theorem Value.entries?_own (v : Value) (mark : Nat) :
    (v.own mark).entries? = v.entries? := by
  cases v <;> rfl

namespace Yaml

/-! ## Contents -/

namespace Contents

variable {s s' u : Contents} {number key value : Nat} {entries : List (Nat × Nat)}
  {content : Content}

/-- A node that is to be filled as a collection. -/
def IsOpen (s : Contents) (number : Nat) : Prop :=
  s.scalar? number = none ∧ (number < s.known.size → (s.content? number).isSome = true)

/-- What is known stays known: a scalar keeps its value, and a collection stays one. -/
structure Extends (s s' : Contents) : Prop where
  scalar : ∀ {number found}, s.scalar? number = some found → s'.scalar? number = some found
  isOpen : ∀ {number}, s.IsOpen number → s'.IsOpen number

/-- Entries with scalars for keys, no two of which are the same key. -/
structure HasKeys (s : Contents) (entries : List (Nat × Nat)) : Prop where
  scalars : ∀ e ∈ entries, (s.scalar? e.1).isSome = true
  distinct : entries.Pairwise fun e e' => ¬s.sameKey e.1 e'.1 = true

/-- Contents as they are found: mappings have their keys apart, scalars hold no entries, and
whatever waits is to be filled as a collection. -/
structure Sound (s : Contents) : Prop where
  mappings : ∀ {number entries}, s.content? number = some (.map entries) → s.HasKeys entries
  scalars : ∀ {number found}, s.scalar? number = some found → found.entries? = none
  waiting : ∀ number ∈ s.waiting, s.IsOpen number

theorem Extends.refl (s : Contents) : s.Extends s := ⟨id, id⟩

theorem Extends.trans (h : s.Extends s') (h' : s'.Extends u) : s.Extends u :=
  ⟨fun hs => h'.scalar (h.scalar hs), fun ho => h'.isOpen (h.isOpen ho)⟩

theorem scalar?_eq_some_iff {v : Value} :
    s.scalar? number = some v ↔ s.content? number = some (.scalar v) := by
  unfold scalar?
  split
  · next hv => simp [hv]
  · next hother => exact ⟨nofun, fun h => absurd h (hother v)⟩

theorem content?_learn (s : Contents) (number n : Nat) (content : Content) :
    (s.learn number content).content? n =
      if n = number ∧ number < s.known.size then some content else s.content? n := by
  unfold learn content?
  simp only [Array.getElem?_setIfInBounds]
  by_cases hn : number = n
  · subst hn
    by_cases hsize : number < s.known.size
    · simp [hsize]
    · simp [hsize]
  · rw [if_neg hn, if_neg fun h => hn h.1.symm]

theorem sameKey_congr (hscalar : ∀ n ∈ [key, value], s'.scalar? n = s.scalar? n) :
    s'.sameKey key value = s.sameKey key value := by
  unfold sameKey
  rw [hscalar key (by simp), hscalar value (by simp)]

theorem HasKeys.extends (h : s.HasKeys entries) (he : s.Extends s') : s'.HasKeys entries := by
  have hsame : ∀ e ∈ entries, s'.scalar? e.1 = s.scalar? e.1 := by
    intro e hmem
    obtain ⟨found, hfound⟩ := Option.isSome_iff_exists.1 (h.scalars e hmem)
    rw [hfound, he.scalar hfound]
  refine ⟨fun e hmem => hsame e hmem ▸ h.scalars e hmem, h.distinct.imp_of_mem ?_⟩
  intro e e' hmem hmem' hdistinct
  rw [sameKey_congr]
  · exact hdistinct
  · simp [hsame e hmem, hsame e' hmem']

/-- A key of the entries with one put is one of theirs, or the key that is put. -/
theorem key_of_mem_put {e : Nat × Nat} (h : e ∈ s.put key value entries) :
    e.1 = key ∨ ∃ e' ∈ entries, e'.1 = e.1 := by
  induction entries with
  | nil =>
    rw [put, List.mem_singleton] at h
    exact Or.inl (by rw [h])
  | cons first entries ih =>
    rw [put] at h
    split at h
    · obtain rfl | hmem := List.mem_cons.1 h
      · exact Or.inr ⟨first, List.mem_cons_self .., rfl⟩
      · exact Or.inr ⟨e, List.mem_cons_of_mem _ hmem, rfl⟩
    · obtain rfl | hmem := List.mem_cons.1 h
      · exact Or.inr ⟨first, List.mem_cons_self .., rfl⟩
      · exact (ih hmem).imp id fun ⟨e', hmem', he'⟩ => ⟨e', List.mem_cons_of_mem _ hmem', he'⟩

/-- An entry that is put keeps the keys apart. -/
theorem HasKeys.put (h : s.HasKeys entries) (hkey : (s.scalar? key).isSome = true) :
    s.HasKeys (s.put key value entries) := by
  refine ⟨fun e hmem => ?_, ?_⟩
  · obtain hk | ⟨e', hmem', he'⟩ := key_of_mem_put hmem
    · rw [hk]
      exact hkey
    · rw [← he']
      exact h.scalars e' hmem'
  · have hdistinct := h.distinct
    clear h
    induction entries with
    | nil => exact List.pairwise_singleton ..
    | cons first entries ih =>
      obtain ⟨hfirst, hrest⟩ := List.pairwise_cons.1 hdistinct
      rw [Contents.put]
      split
      · exact List.pairwise_cons.2 ⟨hfirst, hrest⟩
      · next hother =>
        refine List.pairwise_cons.2 ⟨fun e hmem => ?_, ih hrest⟩
        obtain hk | ⟨e', hmem', he'⟩ := key_of_mem_put hmem
        · rw [hk]
          exact hother
        · rw [← he']
          exact hfirst e' hmem'

/-- The content of a collection. A mapping has its keys apart. -/
structure IsCollected (s : Contents) (content : Content) : Prop where
  noScalar : ∀ v, content ≠ .scalar v
  hasKeys : ∀ entries, content = .map entries → s.HasKeys entries

/-! ## Learning contents -/

theorem scalar?_learn_of_ne {n : Nat} (h : n ≠ number) :
    (s.learn number content).scalar? n = s.scalar? n := by
  unfold scalar?
  rw [content?_learn, if_neg fun hn => h hn.1]

theorem isOpen_learn_of_ne {n : Nat} (h : n ≠ number) (ho : s.IsOpen n) :
    (s.learn number content).IsOpen n := by
  refine ⟨(scalar?_learn_of_ne h).trans ho.1, fun hsize => ?_⟩
  rw [content?_learn, if_neg fun hn => h hn.1]
  exact ho.2 (by simpa [learn] using hsize)

/-- A collection is learnt at a node that is no scalar. -/
theorem isOpen_learn (hcontent : ∀ v, content ≠ .scalar v) (h : s.scalar? number = none) :
    (s.learn number content).IsOpen number := by
  by_cases hsize : number < s.known.size
  · have hlearnt : (s.learn number content).content? number = some content := by
      rw [content?_learn, if_pos ⟨rfl, hsize⟩]
    refine ⟨Option.eq_none_iff_forall_ne_some.2 fun found hfound => ?_,
      fun _ => by rw [hlearnt]; rfl⟩
    rw [scalar?_eq_some_iff, hlearnt] at hfound
    exact hcontent _ (Option.some.inj hfound)
  · refine ⟨?_, fun hlearnt => absurd (by simpa [learn] using hlearnt) hsize⟩
    unfold scalar? at h ⊢
    rw [content?_learn, if_neg fun hn => hsize hn.2]
    exact h

theorem Extends.learn_collection (hcontent : ∀ v, content ≠ .scalar v)
    (h : s.scalar? number = none) : s.Extends (s.learn number content) := by
  constructor
  · intro n found hfound
    have hne : n ≠ number := by
      rintro rfl
      rw [h] at hfound
      cases hfound
    rw [scalar?_learn_of_ne hne, hfound]
  · intro n ho
    by_cases hn : n = number
    · rw [hn]
      exact isOpen_learn hcontent h
    · exact isOpen_learn_of_ne hn ho

theorem Extends.learn_scalar {v : Value} (h : s.content? number = none) :
    s.Extends (s.learn number (.scalar v)) := by
  have hscalar : s.scalar? number = none := by rw [scalar?, h]
  constructor
  · intro n found hfound
    have hne : n ≠ number := by
      rintro rfl
      rw [hscalar] at hfound
      cases hfound
    rw [scalar?_learn_of_ne hne, hfound]
  · intro n ho
    by_cases hn : n = number
    · subst hn
      have hsize : ¬n < s.known.size := by
        intro hsize
        have hsome := ho.2 hsize
        rw [h] at hsome
        cases hsome
      refine ⟨?_, fun hlearnt => absurd (by simpa [learn] using hlearnt) hsize⟩
      rw [scalar?, content?_learn, if_neg fun hn => hsize hn.2, h]
    · exact isOpen_learn_of_ne hn ho

/-- What is learnt keeps contents sound if it is sound itself. -/
theorem Sound.learn (h : s.Sound) (he : s.Extends (s.learn number content))
    (hmap : ∀ entries, content = .map entries → s.HasKeys entries)
    (hscalar : ∀ v, content = .scalar v → v.entries? = none) :
    (s.learn number content).Sound := by
  refine ⟨?_, ?_, fun n hn => he.isOpen (h.waiting n hn)⟩
  · intro n entries hn
    rw [content?_learn] at hn
    split at hn
    · exact (hmap entries (Option.some.inj hn)).extends he
    · exact (h.mappings hn).extends he
  · intro n found hn
    rw [scalar?_eq_some_iff, content?_learn] at hn
    split at hn
    · exact hscalar _ (Option.some.inj hn)
    · exact h.scalars (scalar?_eq_some_iff.2 hn)

/-- Other contents with the same known nodes, and nothing waiting that did not wait before. -/
theorem Sound.of_known (h : s.Sound) (s' : Contents) (hknown : s'.known = s.known)
    (hwaiting : ∀ number ∈ s'.waiting, s.IsOpen number) : s.Extends s' ∧ s'.Sound := by
  obtain ⟨graph, known, waiting⟩ := s'
  cases hknown
  exact ⟨⟨id, id⟩, fun hn => ⟨(h.mappings hn).1, (h.mappings hn).2⟩, h.scalars, hwaiting⟩

end Contents

/-! ## Finding contents -/

/-- The value of a timestamp has no entries. -/
theorem entries?_of_readTimestamp {t : Text} {v : Value} (h : readTimestamp t = .ok v) :
    v.entries? = none := by
  unfold readTimestamp at h
  simp only [bind, Except.bind, pure, Except.pure] at h
  split at h
  · split at h
    · split at h
      · cases h
      · cases h
        rfl
    · split at h
      · cases h
      · cases h
        rfl
  · cases h

/-- The value of a scalar has no entries. -/
theorem entries?_of_scalarValue {tag : StandardTag} {t : Text} {v : Value}
    (h : scalarValue tag t = .ok v) :
    v.entries? = none := by
  have of_map : ∀ {α : Type} {result : Except Error α} {f : α → Value}
    (_ : ∀ a, (f a).entries? = none) (_ : result.map f = .ok v), v.entries? = none := by
    intro α result f hf hv
    cases result with
    | error e => cases hv
    | ok a =>
      cases hv
      exact hf a
  cases tag with
  | null =>
    cases h
    rfl
  | bool =>
    simp only [scalarValue] at h
    split at h
    · cases h
      rfl
    · cases h
  | int => exact of_map (fun _ => rfl) h
  | float => exact of_map (fun _ => rfl) h
  | binary =>
    simp only [scalarValue] at h
    split at h
    · cases h
      rfl
    · cases h
  | timestamp => exact entries?_of_readTimestamp h
  | str =>
    cases h
    rfl
  | _ => cases h

namespace Fill

open Contents

variable {α β : Type} {s s' : Contents} {number : Nat}

/-- A computation that extends contents, keeps them sound, and gives a result with a property. -/
def Leads (s : Contents) (job : Fill α) (P : Contents → α → Prop) : Prop :=
  ∀ ⦃a s'⦄, job.run s = .ok (a, s') → s'.Sound ∧ s.Extends s' ∧ P s' a

variable {P : Contents → α → Prop} {Q : Contents → β → Prop} {job : Fill α} {next : α → Fill β}

theorem Leads.pure {a : α} (hs : s.Sound) (h : P s a) : Leads s (Pure.pure a) P := by
  intro b u hrun
  cases hrun
  exact ⟨hs, .refl s, h⟩

theorem Leads.throw {e : Error} : Leads s (throw e : Fill α) P := by
  intro b u hrun
  cases hrun

theorem Leads.bind (h : Leads s job P)
    (hnext : ∀ a s', s'.Sound → s.Extends s' → P s' a → Leads s' (next a) Q) :
    Leads s (job >>= next) Q := by
  intro b u hrun
  rw [StateT.run_bind] at hrun
  cases hjob : job.run s with
  | error e =>
    rw [hjob] at hrun
    cases hrun
  | ok result =>
    obtain ⟨a, s'⟩ := result
    rw [hjob] at hrun
    obtain ⟨hs', he, hp⟩ := h hjob
    obtain ⟨hu, he', hq⟩ := hnext a s' hs' he hp hrun
    exact ⟨hu, he.trans he', hq⟩

theorem Leads.map {f : α → β} (h : Leads s job P) (hf : ∀ u a, P u a → Q u (f a)) :
    Leads s (f <$> job) Q := by
  rw [map_eq_pure_bind]
  exact h.bind fun a u hu _ hp => .pure hu (hf u a hp)

/-- Looking at the contents changes nothing. -/
theorem Leads.get_bind {next : Contents → Fill β} (h : Leads s (next s) Q) :
    Leads s (get >>= next) Q := h

/-- A computation that does not look at the contents changes nothing. -/
theorem Leads.lift_bind {result : Except Error α} (h : ∀ a, result = .ok a → Leads s (next a) Q) :
    Leads s (liftM result >>= next) Q := by
  cases result with
  | error e =>
    intro b u hrun
    cases hrun
  | ok a => exact h a rfl

theorem Leads.set (he : s.Extends s') (hs' : s'.Sound) : Leads s (set s') fun _ _ => True := by
  intro b u hrun
  cases hrun
  exact ⟨hs', he, trivial⟩

theorem Leads.forM {f : Nat → Fill Unit} {items : List Nat} (hs : s.Sound)
    (h : ∀ n ∈ items, ∀ u, u.Sound → s.Extends u → Leads u (f n) fun _ _ => True) :
    Leads s (items.forM f) fun _ _ => True := by
  induction items generalizing s with
  | nil => exact .pure hs trivial
  | cons n items ih =>
    refine (h n (List.mem_cons_self ..) s hs (.refl s)).bind fun _ u hu he _ => ?_
    exact ih hu fun n hn v hv he' => h n (List.mem_cons_of_mem _ hn) v hv (he.trans he')

theorem Leads.mapM {f : Nat → Fill α} {items : List Nat} (hs : s.Sound)
    (h : ∀ n u, u.Sound → Leads u (f n) fun _ _ => True) :
    Leads s (items.mapM f) fun _ _ => True := by
  induction items generalizing s with
  | nil => exact .pure hs trivial
  | cons n items ih =>
    rw [List.mapM_cons]
    refine (h n s hs).bind fun _ u hu _ _ => (ih hu).bind fun _ u' hu' _ _ => .pure hu' trivial

/-- Meeting a node keeps contents sound. -/
theorem leads_visit (hs : s.Sound) (number : Nat) : Leads s (visit number) fun _ _ => True := by
  unfold visit
  refine .get_bind ?_
  split
  · exact .pure hs trivial
  next hunknown =>
  have hnone : s.content? number = none := by simpa using hunknown
  split
  · exact .throw
  rename_i tag _
  split
  · -- a collection waits until it is filled
    have hcontent : ∀ v, Content.list [] ≠ .scalar v := nofun
    have hscalar : s.scalar? number = none := by rw [scalar?, hnone]
    have hlearn := Extends.learn_collection hcontent hscalar
    have hsound := hs.learn hlearn nofun nofun
    obtain ⟨hext, hsound'⟩ := hsound.of_known
      { s.learn number (.list []) with waiting := number :: s.waiting } rfl fun n hn => by
        obtain rfl | hn := List.mem_cons.1 hn
        · exact isOpen_learn hcontent hscalar
        · exact hsound.waiting n hn
    exact .set (hlearn.trans hext) hsound'
  split
  · exact .lift_bind fun _ _ => .throw
  split
  · exact .throw
  refine Leads.lift_bind fun t _ => .lift_bind fun v hv => ?_
  refine .set (.learn_scalar hnone) (hs.learn (.learn_scalar hnone) nofun ?_)
  rintro w ⟨⟩
  have hentries := entries?_of_scalarValue hv
  split
  · exact hentries
  · rw [Value.entries?_own, hentries]

/-- Meeting a key finds a scalar. -/
theorem leads_visitKey (hs : s.Sound) (number : Nat) :
    Leads s (visitKey number) fun u _ => (u.scalar? number).isSome = true := by
  unfold visitKey
  refine (leads_visit hs number).bind fun _ u hu _ _ => .get_bind ?_
  split
  · exact .throw
  · next hscalar => exact .pure hu (by simpa [Option.isSome_iff_ne_none] using hscalar)

theorem leads_visitPair (hs : s.Sound) (number : Nat) :
    Leads s (visitPair number) fun _ _ => True := by
  unfold visitPair
  refine .get_bind ?_
  split
  · next key value _ =>
    exact (leads_visit hs key).bind fun _ u hu _ _ =>
      (leads_visit hu value).bind fun _ u' hu' _ _ =>
      .pure hu' trivial
  · exact .throw

/-- The entries of a mapping have their keys apart. -/
theorem leads_visitEntries (hs : s.Sound) (depth number : Nat) :
    Leads s (visitEntries depth number) HasKeys := by
  unfold visitEntries
  refine .get_bind (.lift_bind fun result _ => ?_)
  obtain ⟨⟨⟩, graph⟩ := result
  obtain ⟨hext, hsound⟩ := hs.of_known { s with graph } rfl hs.waiting
  refine (Leads.set hext hsound).bind fun _ u hu _ _ => ?_
  -- along the list, whatever was put so far has its keys apart
  have hfold : ∀ (entries : List (Nat × Nat)) (v : Contents) (found : List (Nat × Nat)), v.Sound →
      v.HasKeys found → Leads v (entries.foldlM (fun found e => do
        visitKey e.1
        visit e.2
        return (← get).put e.1 e.2 found) found) HasKeys := by
    intro entries
    induction entries with
    | nil => exact fun v found hv hfound => .pure hv hfound
    | cons e entries ih =>
      intro v found hv hfound
      rw [List.foldlM_cons]
      have hstep : Leads v (do
          visitKey e.1
          visit e.2
          return (← get).put e.1 e.2 found) HasKeys := by
        refine (leads_visitKey hv e.1).bind fun _ x hx he hkey => ?_
        refine (leads_visit hx e.2).bind fun _ y hy he' _ => .get_bind (.pure hy ?_)
        obtain ⟨key, hkey⟩ := Option.isSome_iff_exists.1 hkey
        refine (hfound.extends (he.trans he')).put ?_
        rw [he'.scalar hkey]
        rfl
      exact hstep.bind fun found' w hw _ hfound' => ih w found' hw hfound'
  exact hfold _ u [] hu ⟨fun _ he => absurd he List.not_mem_nil, .nil⟩

/-- Filling a collection keeps contents sound. -/
theorem leads_fill (hs : s.Sound) (ho : s.IsOpen number) (depth : Nat) :
    Leads s (fill depth number) fun _ _ => True := by
  have hlearn : ∀ job : Fill Content, Leads s job IsCollected →
      Leads s (job >>= fun content => modify (·.learn number content)) fun _ _ => True := by
    intro job hjob
    refine hjob.bind fun content u hu he hcontent => ?_
    have hext := Extends.learn_collection hcontent.noScalar (he.isOpen ho).1
    exact .set hext (hu.learn hext hcontent.hasKeys fun v h => absurd h (hcontent.noScalar v))
  unfold fill
  refine .get_bind ?_
  split
  · next items _ =>
    refine (Leads.forM hs fun n _ u hu _ => leads_visit hu n).bind fun _ u hu he _ => ?_
    have hlist : ∀ v, Content.list items ≠ .scalar v := nofun
    have hext := Extends.learn_collection hlist (he.isOpen ho).1
    exact .set hext (hu.learn hext nofun nofun)
  · exact hlearn _ ((Leads.mapM hs fun n u hu => leads_visitPair hu n).map fun _ _ _ =>
      ⟨nofun, nofun⟩)
  · exact hlearn _ ((Leads.mapM hs fun n u hu => leads_visitPair hu n).map fun _ _ _ =>
      ⟨nofun, nofun⟩)
  · refine hlearn _ ((leads_visitEntries hs depth number).map fun u entries h => ⟨nofun, ?_⟩)
    rintro _ ⟨⟩
    exact h
  · exact hlearn _ ((leads_visitEntries hs depth number).map fun _ _ _ => ⟨nofun, nofun⟩)
  · exact hlearn _ .throw

theorem leads_fillAll (hs : s.Sound) (depth rounds : Nat) :
    Leads s (fillAll depth rounds) fun _ _ => True := by
  induction rounds generalizing s with
  | zero => exact .pure hs trivial
  | succ rounds ih =>
    unfold fillAll
    refine Leads.get_bind ?_
    simp only
    split
    · obtain ⟨hext, hsound⟩ := hs.of_known { s with waiting := [] } rfl nofun
      refine Leads.bind (Leads.set hext hsound) fun _ u hu he _ => ?_
      refine (Leads.forM hu fun n hn v hv he' => ?_).bind fun _ v hv _ _ => ih hv
      exact leads_fill hv (he'.isOpen (he.isOpen (hs.waiting n (List.mem_reverse.1 hn)))) depth
    · exact .pure hs trivial

end Fill

/-- The contents of all nodes have their keys apart. -/
theorem Graph.sound_of_contents {g : Graph} {root : Nat} {s : Contents}
    (h : g.contents root = .ok s) :
    s.Sound := by
  have hstart : Contents.Sound ⟨g, Array.replicate g.size none, []⟩ := by
    have hunknown : ∀ number,
        Contents.content? ⟨g, Array.replicate g.size none, []⟩ number = none := by
      intro number
      simp only [Contents.content?, Array.getElem?_replicate]
      split <;> rfl
    refine ⟨fun hn => ?_, fun hn => ?_, nofun⟩
    · rw [hunknown] at hn
      cases hn
    · rw [Contents.scalar?_eq_some_iff, hunknown] at hn
      cases hn
  have hleads : Fill.Leads ⟨g, Array.replicate g.size none, []⟩ (do
      Fill.visit root
      Fill.fillAll (g.entryCount + 1) (g.size + 1)) fun _ _ => True :=
    (Fill.leads_visit hstart root).bind fun _ u hu _ _ => Fill.leads_fillAll hu _ _
  unfold contents at h
  simp only [bind, Except.bind] at h
  split at h
  · cases h
  · next result hrun =>
    obtain ⟨⟨⟩, u⟩ := result
    cases h
    exact (hleads hrun).1

/-! ## Values -/

namespace Contents

variable {s : Contents}

/-- A value of a node: that of a scalar is the scalar's. -/
def Tells (s : Contents) (number : Nat) (v : Value) : Prop :=
  ∀ found, s.scalar? number = some found → v = found

/-- The values found so far are those of their nodes, and have each key once. -/
def Remembers (s : Contents) (known : Array (Option Value)) : Prop :=
  ∀ number v, (known[number]?).join = some v → s.Tells number v ∧ ∀ levels, v.IsKeyed levels

/-- A computation that keeps what is remembered right, and gives a result with a property. -/
def Recalls {α : Type} (s : Contents) (job : Unroll α) (P : α → Prop) : Prop :=
  ∀ known, s.Remembers known → s.Remembers (job.run known).2 ∧ P (job.run known).1

section Recalls

variable {α β : Type} {job : Unroll α} {next : α → Unroll β} {P : α → Prop} {Q : β → Prop}

theorem Recalls.pure {a : α} (h : P a) : s.Recalls (Pure.pure a) P := fun _ hknown => ⟨hknown, h⟩

theorem Recalls.bind (h : s.Recalls job P) (hnext : ∀ a, P a → s.Recalls (next a) Q) :
    s.Recalls (job >>= next) Q := by
  intro known hknown
  obtain ⟨hjob, hp⟩ := h known hknown
  exact hnext _ hp _ hjob

theorem Recalls.get_bind {next : Array (Option Value) → Unroll β}
    (h : ∀ known, s.Remembers known → s.Recalls (next known) Q) : s.Recalls (get >>= next) Q :=
  fun known hknown => h known hknown known hknown

/-- Each item is paired with its result. -/
theorem Recalls.mapM {f : α → Unroll β} {R : α → β → Prop} {items : List α}
    (h : ∀ a ∈ items, s.Recalls (f a) (R a)) :
    s.Recalls (items.mapM f) fun results =>
      ∃ pairs : List (α × β), pairs.map (·.1) = items ∧ pairs.map (·.2) = results ∧
        ∀ p ∈ pairs, R p.1 p.2 := by
  induction items with
  | nil => exact .pure ⟨[], rfl, rfl, nofun⟩
  | cons a items ih =>
    rw [List.mapM_cons]
    obtain ⟨hfirst, hrest⟩ := List.forall_mem_cons.1 h
    refine hfirst.bind fun b hb => (ih hrest).bind fun bs hbs => .pure ?_
    obtain ⟨pairs, rfl, rfl, hpairs⟩ := hbs
    exact ⟨(a, b) :: pairs, rfl, rfl, List.forall_mem_cons.2 ⟨hb, hpairs⟩⟩

end Recalls

/-- What is right of a value that was made for a node at a depth, and of whether it is cut off
nowhere. Down to a level that the depth allows, and to every level if it is cut off nowhere,
it has each key once. -/
def Renders (s : Contents) (number depth : Nat) (result : Value × Bool) : Prop :=
  ∀ levels, result.2 = true ∨ levels < depth → s.Tells number result.1 ∧ result.1.IsKeyed levels

theorem Tells.of_content? {number : Nat} {v : Value}
    (h : ∀ w, s.content? number ≠ some (.scalar w)) : s.Tells number v :=
  fun _ hfound => absurd (scalar?_eq_some_iff.1 hfound) (h _)

theorem Renders.of_entries? {number depth : Nat} {v : Value} {whole : Bool}
    (htells : s.Tells number v) (h : v.entries? = none) : s.Renders number depth (v, whole) :=
  fun levels _ => ⟨htells, v.isKeyed_of_entries? h levels⟩

/-- Parts with the keys of a mapping have each key once, if the keys are rendered. -/
theorem isKeyed_of_parts {entries : List (Nat × Nat)} {levels : Nat} (hkeys : s.HasKeys entries)
    {pairs : List ((Nat × Nat) × ((Value × Value) × Bool))} (hfirst : pairs.map (·.1) = entries)
    (hpairs : ∀ p ∈ pairs, s.Tells p.1.1 p.2.1.1 ∧ p.2.1.2.IsKeyed levels) :
    Value.IsKeyed (levels + 1) (.map ((pairs.map (·.2)).map (·.1))) := by
  subst hfirst
  constructor
  · rw [Entries.Distinct, List.pairwise_map, List.pairwise_map]
    refine (List.pairwise_map.1 hkeys.distinct).imp_of_mem ?_
    intro p p' hmem hmem' hdistinct hsame
    obtain ⟨found, hfound⟩ := Option.isSome_iff_exists.1
      (hkeys.scalars p.1 (List.mem_map_of_mem hmem))
    obtain ⟨found', hfound'⟩ := Option.isSome_iff_exists.1
      (hkeys.scalars p'.1 (List.mem_map_of_mem hmem'))
    rw [(hpairs p hmem).1 found hfound, (hpairs p' hmem').1 found' hfound'] at hsame
    refine hdistinct ?_
    simp [sameKey, hfound, hfound', hsame]
  · rw [List.map_map]
    rintro _ he
    obtain ⟨p, hp, rfl⟩ := List.mem_map.1 he
    exact (hpairs p hp).2

/-- The value of a node has each key once down to the level that the depth allows. -/
theorem recalls_unroll (hs : s.Sound) (depth full : Nat) (path : List Nat) (number : Nat) :
    s.Recalls (s.unroll depth full path number) (s.Renders number depth) := by
  induction depth generalizing full path number with
  | zero =>
    refine .pure fun levels h => ?_
    obtain h | h := h
    · cases h
    · omega
  | succ depth ih =>
    have hfinish : ∀ v whole, s.Renders number (depth + 1) (v, whole) → s.Recalls (do
        if whole then modify fun known => known.setIfInBounds number (some v)
        return (v, whole)) (s.Renders number (depth + 1)) := by
      intro v whole hv known hknown
      cases whole with
      | false => exact ⟨hknown, hv⟩
      | true =>
        refine ⟨fun n u (hu : ((known.setIfInBounds number (some v))[n]?).join = some u) => ?_, hv⟩
        rw [Array.getElem?_setIfInBounds] at hu
        split at hu
        · next hn =>
          subst hn
          split at hu
          · cases hu
            exact ⟨(hv 0 (Or.inl rfl)).1, fun levels => (hv levels (Or.inl rfl)).2⟩
          · cases hu
        · exact hknown n u hu
    unfold unroll
    refine Recalls.get_bind fun known hknown => ?_
    split
    · next v hv =>
      obtain ⟨htells, hkeyed⟩ := hknown number v hv
      exact .pure fun levels _ => ⟨htells, hkeyed levels⟩
    dsimp only
    have hpart : ∀ n,
      s.Recalls (s.unroll depth (full - 1) (if full = 0 then number :: path else path) n)
        (s.Renders n depth) := fun n => ih _ _ n
    generalize (if full = 0 then number :: path else path) = inner at hpart ⊢
    generalize full - 1 = full at hpart ⊢
    have hpair : ∀ e : Nat × Nat, s.Recalls (do
        let key ← s.unroll depth full inner e.1
        let value ← s.unroll depth full inner e.2
        return ((key.1, value.1), key.2 && value.2)) fun pair =>
          ∀ levels, pair.2 = true ∨ levels < depth → s.Tells e.1 pair.1.1 ∧
            pair.1.2.IsKeyed levels := by
      intro e
      refine (hpart e.1).bind fun key hkey => (hpart e.2).bind fun value hvalue => .pure ?_
      intro levels h
      rw [Bool.and_eq_true] at h
      exact ⟨(hkey levels (h.imp And.left id)).1, (hvalue levels (h.imp And.right id)).2⟩
    split
    · next hnone => exact hfinish .null false (.of_entries? (.of_content? (by simp [hnone])) rfl)
    · next v hv =>
      have hscalar : s.scalar? number = some v := scalar?_eq_some_iff.2 hv
      refine hfinish v true (.of_entries? (fun found hfound => ?_) (hs.scalars hscalar))
      rw [hscalar] at hfound
      cases hfound
      rfl
    · next items hitems =>
      have htells : ∀ v, s.Tells number v := fun v => .of_content? (by simp [hitems])
      split
      · exact hfinish (.again false) false (.of_entries? (htells _) rfl)
      · exact (Recalls.mapM fun n _ => hpart n).bind fun parts _ =>
          hfinish _ _ (.of_entries? (htells _) rfl)
    · next items hitems =>
      have htells : ∀ v, s.Tells number v := fun v => .of_content? (by simp [hitems])
      split
      · exact hfinish (.again false) false (.of_entries? (htells _) rfl)
      · exact (Recalls.mapM fun e _ => hpair e).bind fun parts _ =>
          hfinish _ _ (.of_entries? (htells _) rfl)
    · next keys hkeys =>
      have htells : ∀ v, s.Tells number v := fun v => .of_content? (by simp [hkeys])
      refine (Recalls.mapM fun n _ => hpart n).bind fun parts _ => ?_
      exact hfinish (.set (parts.map (·.1))) true (.of_entries? (htells _) rfl)
    · next entries hentries =>
      have htells : ∀ v, s.Tells number v := fun v => .of_content? (by simp [hentries])
      split
      · exact hfinish (.again true) false (.of_entries? (htells _) rfl)
      refine (Recalls.mapM fun e _ => hpair e).bind fun parts hparts =>
        hfinish _ _ fun levels h => ?_
      obtain ⟨pairs, hfirst, rfl, hpairs⟩ := hparts
      refine ⟨htells _, ?_⟩
      cases levels with
      | zero => trivial
      | succ levels =>
        refine isKeyed_of_parts (hs.mappings hentries) hfirst fun p hp => hpairs p hp levels ?_
        refine h.imp (fun hall => ?_) Nat.succ_lt_succ_iff.1
        exact List.all_eq_true.1 hall p.2 (List.mem_map_of_mem hp)

theorem join_getElem?_replicate_none (size number : Nat) :
    ((Array.replicate size (none : Option Value))[number]?).join = none := by
  rw [Array.getElem?_replicate]
  split <;> rfl

/-- At first no values are known. -/
theorem remembers_none (s : Contents) (size : Nat) : s.Remembers (Array.replicate size none) := by
  intro number v hv
  rw [join_getElem?_replicate_none] at hv
  cases hv

/-- The value of a root has each key once, in its own entries and in those of the mappings in it. -/
theorem isKeyed_value (hs : s.Sound) (root : Nat) : (s.value root).IsKeyed 2 := by
  obtain ⟨_, hrenders⟩ :=
    recalls_unroll hs (s.graph.size + fullLevels + 1) fullLevels [] root _
      (remembers_none s s.graph.size)
  exact (hrenders 2 (Or.inr (by unfold fullLevels; omega))).2

end Contents

/-- The value of a document has each key once, in its own entries and in those of the mappings in
it. -/
theorem isKeyed_of_readBytes {bytes : List UInt8} {v : Value} (h : readBytes bytes = .ok v) :
    v.IsKeyed 2 := by
  have of_readText : ∀ {cut t}, Source.readText cut t = .ok v → v.IsKeyed 2 := by
    intro cut t hread
    unfold Source.readText at hread
    simp only [bind, Except.bind] at hread
    split at hread
    · cases hread
    split at hread
    · cases hread
      trivial
    · split at hread
      · cases hread
      · next hcontents =>
        cases hread
        exact Contents.isKeyed_value (Graph.sound_of_contents hcontents) _
  rw [readBytes, Source.value] at h
  split at h
  · cases h
  · generalize hresult : Source.readText _ _ = result at h
    cases result with
    | error e => cases h
    | ok u =>
      cases h
      exact of_readText hresult

end Yaml

end ImportRepair

import ImportRepair.Proofs.Yaml.Keys
import ImportRepair.Proofs.Yaml.Reading

/-!
# The value of plain lines

A document of lines is read as it is, since its characters are allowed and none of them is cut. The
mapping of its nodes is met first and filled then: its names are met in the order of their numbers,
each of them is a scalar that is known from there on, and an entry comes last if its key is new.

Results:
* `Fill.IsAt.visit_lines`: the lines are met one after another.
* `Graph.contents_ofLines`: the contents of the nodes of lines.
* `Contents.value_of_map`: the value of a mapping of scalars.
* `Source.ofBytes_encodeAll`: ASCII text without control characters is read as it is.
* `readBytes_document`, `readBytes_document_of_long`: the value of a document of lines,
  or the failure to read it.
-/

namespace ImportRepair.Yaml

variable {e : Text × Text} {es before after : List (Text × Text)}
  {number key value : Nat} {t : Text}

/-! ## The nodes of lines -/

theorem length_flatMap_ofLine (es : List (Text × Text)) :
    (es.flatMap Node.ofLine).length = 2 * es.length := by
  induction es with
  | nil => rfl
  | cons e es ih => rw [List.flatMap_cons, List.length_append, ih, List.length_cons,
      Nat.mul_succ, Nat.add_comm]; rfl

theorem size_ofLines (es : List (Text × Text)) : (Graph.ofLines es).size = 1 + 2 * es.length := by
  rw [Graph.ofLines, List.size_toArray, List.length_cons, length_flatMap_ofLine, Nat.add_comm]

/-- The two nodes of a line come behind the mapping and the nodes of the lines before it. -/
theorem node_ofLines (before : List (Text × Text)) (e : Text × Text) (after : List (Text × Text)) :
    (Graph.ofLines (before ++ e :: after)).node (1 + 2 * before.length) = .ofName e.1 ∧
      (Graph.ofLines (before ++ e :: after)).node (1 + 2 * before.length + 1) = .ofName e.2 := by
  have hnode : ∀ n, (Graph.ofLines (before ++ e :: after)).node (1 + 2 * before.length + n) =
      ((Node.ofLine e ++ after.flatMap Node.ofLine)[n]?).getD .absent := by
    intro n
    have hnumber : 1 + 2 * before.length + n = (before.flatMap Node.ofLine).length + n + 1 := by
      rw [length_flatMap_ofLine]
      omega
    rw [Graph.node, Graph.ofLines, Array.getD_eq_getD_getElem?, List.getElem?_toArray, hnumber,
      List.getElem?_cons_succ, List.flatMap_append, List.flatMap_cons,
      List.getElem?_append_right (Nat.le_add_right ..), Nat.add_sub_cancel_left]
  exact ⟨hnode 0, hnode 1⟩

theorem numbered_append (first : Nat) (es more : List (Text × Text)) :
    numbered first (es ++ more) = numbered first es ++ numbered (first + 2 * es.length) more := by
  induction es generalizing first with
  | nil => rfl
  | cons e es ih =>
    have hnext : first + 2 + 2 * es.length = first + 2 * (e :: es).length := by
      rw [List.length_cons]
      omega
    rw [List.cons_append, numbered, numbered, ih, hnext, List.cons_append]

/-- An entry is that of a line. -/
theorem of_mem_numbered {first : Nat} {p : Nat × Nat} (h : p ∈ numbered first es) :
    ∃ before e after, es = before ++ e :: after ∧
      p = (first + 2 * before.length, first + 2 * before.length + 1) := by
  induction es generalizing first with
  | nil => cases h
  | cons e es ih =>
    obtain rfl | hmem := List.mem_cons.1 h
    · exact ⟨[], e, es, rfl, rfl⟩
    · obtain ⟨before, e', after, rfl, rfl⟩ := ih hmem
      refine ⟨e :: before, e', after, rfl, ?_⟩
      rw [List.length_cons, Nat.mul_succ, Nat.add_comm (2 * before.length), ← Nat.add_assoc]

namespace Graph

variable {g : Graph}

/-- The value of a name. -/
def nameValue (g : Graph) (number : Nat) : Value :=
  match g.node number with
  | .scalar _ t => plainValue t
  | _ => .null

theorem nameValue_ofLines (before : List (Text × Text)) (e : Text × Text)
    (after : List (Text × Text)) :
    (ofLines (before ++ e :: after)).nameValue (1 + 2 * before.length) = plainValue e.1 ∧
      (ofLines (before ++ e :: after)).nameValue (1 + 2 * before.length + 1) = plainValue e.2 := by
  obtain ⟨hkey, hvalue⟩ := node_ofLines before e after
  rw [nameValue, nameValue, hkey, hvalue]
  exact ⟨rfl, rfl⟩

/-- The entries have the values of the names of their lines. -/
theorem map_numbered (before after : List (Text × Text)) :
    (numbered (1 + 2 * before.length) after).map (fun p =>
      ((ofLines (before ++ after)).nameValue p.1, (ofLines (before ++ after)).nameValue p.2)) =
        after.map fun e => (plainValue e.1, plainValue e.2) := by
  induction after generalizing before with
  | nil => rfl
  | cons e after ih =>
    obtain ⟨hkey, hvalue⟩ := nameValue_ofLines before e after
    have hrest := ih (before ++ [e])
    rw [List.length_append, List.length_singleton, Nat.mul_add, ← Nat.add_assoc, List.append_assoc,
      List.singleton_append] at hrest
    rw [numbered, List.map_cons, List.map_cons, hkey, hvalue, hrest]

/-- Nothing is taken where no key asks for it. -/
theorem run_takeSources
    (h : ∀ e ∈ (g.node number).entries, g.hasTag e.1 .merge = false ∧ g.hasTag e.1 .value = false)
    (takeOver : Nat → Change Unit) (steps index : Nat) :
    (takeSources takeOver number steps index).run g = .ok ([], g) := by
  induction steps generalizing index with
  | zero => rfl
  | succ steps ih =>
    rw [takeSources, run_bind_ok (run_get g)]
    cases hentry : (g.node number).entries[index]? with
    | none => rfl
    | some e =>
      obtain ⟨hmerge, hvalue⟩ := h e (List.mem_of_getElem? hentry)
      simp only [hmerge, hvalue, Bool.false_eq_true, if_false]
      exact ih (index + 1)

theorem run_takeOver
    (h : ∀ e ∈ (g.node number).entries, g.hasTag e.1 .merge = false ∧ g.hasTag e.1 .value = false)
    (depth : Nat) : (takeOver depth number).run g = .ok ((), g) := by
  cases depth with
  | zero => rfl
  | succ depth =>
    rw [takeOver, run_bind_ok (run_get g), run_bind_ok (run_takeSources h _ _ _)]
    rfl

end Graph

theorem Contents.put_of_new {s : Contents} {entries : List (Nat × Nat)}
    (h : ∀ p ∈ entries, s.sameKey p.1 key = false) :
    s.put key value entries = entries ++ [(key, value)] := by
  induction entries with
  | nil => rfl
  | cons p entries ih =>
    obtain ⟨hfirst, hrest⟩ := List.forall_mem_cons.1 h
    rw [Contents.put, hfirst, if_neg Bool.false_ne_true, ih hrest, List.cons_append]

namespace Fill

variable {s : Contents}

/-- Meeting a name learns its value. -/
theorem run_visit_name (hnew : s.content? number = none) (hnode : s.graph.node number = .ofName t)
    (ht : t.isIdentifier = true) :
    (visit number).run s = .ok ((), s.learn number (.scalar (plainValue t))) := by
  have htext : s.graph.plainText (s.graph.size + 1) number = .ok t := by
    rw [Graph.plainText, hnode]
    rfl
  rw [visit, run_bind_ok (run_get s), hnew, if_neg nofun, hnode]
  simp only [Node.ofName, Node.tag]
  have htag := implicitTag_of_isIdentifier ht
  have hvalue := scalarValue_of_isIdentifier ht
  generalize implicitTag t = tag at htag hvalue ⊢
  have hplain : tag = .bool ∨ tag = .null ∨ tag = .str := by
    rw [htag]
    split
    · exact Or.inl rfl
    · split
      · exact Or.inr (Or.inl rfl)
      · exact Or.inr (Or.inr rfl)
  rw [htext]
  obtain rfl | rfl | rfl := hplain <;>
    simp only [StandardTag.isCollection, Bool.false_eq_true, if_false] <;>
    rw [if_neg (by decide), run_bind_ok (a := t) (u := s) rfl, hvalue,
      run_bind_ok (a := plainValue t) (u := s) rfl, if_neg (by simp), own_plainValue] <;> rfl

/-- Contents of lines where the nodes below a number are known, besides the mapping
that is to be filled. -/
structure IsAt (s : Contents) (g : Graph) (bound : Nat) : Prop where
  graph : s.graph = g
  waiting : s.waiting = []
  size : s.known.size = g.size
  mapping : s.content? 0 = some (.list [])
  names : ∀ n, 0 < n → n < bound → s.content? n = some (.scalar (g.nameValue n))
  unknown : ∀ n, 0 < n → bound ≤ n → s.content? n = none

variable {g : Graph} {bound : Nat}

/-- The next name is met. -/
theorem IsAt.visit_next (h : IsAt s g bound) (hpos : 0 < bound) (hbound : bound < g.size)
    (hnode : g.node bound = .ofName t) (ht : t.isIdentifier = true) :
    (visit bound).run s = .ok ((), s.learn bound (.scalar (g.nameValue bound))) ∧
      IsAt (s.learn bound (.scalar (g.nameValue bound))) g (bound + 1) := by
  have hvalue : g.nameValue bound = plainValue t := by
    rw [Graph.nameValue, hnode]
    rfl
  refine ⟨?_, h.graph, h.waiting, ?_, ?_, fun n hn hlt => ?_, fun n hn hle => ?_⟩
  · rw [hvalue]
    exact run_visit_name (h.unknown bound hpos (Nat.le_refl _)) (h.graph ▸ hnode) ht
  · simp [Contents.learn, h.size]
  · rw [Contents.content?_learn, if_neg fun hzero => Nat.ne_of_lt hpos hzero.1, h.mapping]
  · rw [Contents.content?_learn, h.size]
    by_cases hsame : n = bound
    · rw [if_pos ⟨hsame, hbound⟩, hsame]
    · rw [if_neg fun hlearnt => hsame hlearnt.1, h.names n hn (by omega)]
  · rw [Contents.content?_learn, if_neg fun hlearnt => by omega, h.unknown n hn (by omega)]

/-- The next line is met: its entry comes last if its key is new. -/
theorem IsAt.visit_line {found : List (Nat × Nat)} (h : IsAt s g bound) (hpos : 0 < bound)
    (hbound : bound + 1 < g.size) (hkey : g.node bound = .ofName e.1)
    (hvalue : g.node (bound + 1) = .ofName e.2) (he : IsNamed e)
    (hnew : ∀ p ∈ found, 0 < p.1 ∧ p.1 < bound ∧
      (g.nameValue p.1).sameKey (g.nameValue bound) = false) :
    ∃ s', (do
      visitKey bound
      visit (bound + 1)
      return (← get).put bound (bound + 1) found : Fill (List (Nat × Nat))).run s =
        .ok (found ++ [(bound, bound + 1)], s') ∧ IsAt s' g (bound + 2) := by
  obtain ⟨hrun, hs⟩ := h.visit_next hpos (by omega) hkey he.key
  obtain ⟨hrun', hs'⟩ := hs.visit_next (Nat.succ_pos _) hbound hvalue he.value
  generalize s.learn bound (.scalar (g.nameValue bound)) = u at hrun hs hrun' hs'
  generalize u.learn (bound + 1) (.scalar (g.nameValue (bound + 1))) = s' at hrun' hs'
  have hscalar : u.scalar? bound = some (g.nameValue bound) :=
    Contents.scalar?_eq_some_iff.2 (hs.names bound hpos (Nat.lt_succ_self _))
  have hvisit : (visitKey bound).run s = .ok ((), u) := by
    rw [visitKey, run_bind_ok hrun, run_bind_ok (run_get u), hscalar]
    rfl
  have hput : s'.put bound (bound + 1) found = found ++ [(bound, bound + 1)] := by
    refine Contents.put_of_new fun p hp => ?_
    obtain ⟨hpos', hlt, hdiffers⟩ := hnew p hp
    have hfirst : s'.scalar? p.1 = some (g.nameValue p.1) :=
      Contents.scalar?_eq_some_iff.2 (hs'.names p.1 hpos' (by omega))
    have hsecond : s'.scalar? bound = some (g.nameValue bound) :=
      Contents.scalar?_eq_some_iff.2 (hs'.names bound hpos (by omega))
    simp [Contents.sameKey, hfirst, hsecond, hdiffers, Nat.ne_of_lt hlt]
  refine ⟨s', ?_, hs'⟩
  rw [run_bind_ok hvisit, run_bind_ok hrun', run_bind_ok (run_get s'), hput]
  rfl

/-- The lines are met one after another. -/
theorem IsAt.visit_lines (before : List (Text × Text))
    (h : IsAt s (Graph.ofLines (before ++ after)) (1 + 2 * before.length))
    (hnamed : ∀ e ∈ before ++ after, IsNamed e)
    (hdistinct : (before ++ after).Pairwise fun e e' =>
      (plainValue e.1).sameKey (plainValue e'.1) = false) :
    ∃ s', ((numbered (1 + 2 * before.length) after).foldlM (fun entries (p : Nat × Nat) => do
      visitKey p.1
      visit p.2
      return (← get).put p.1 p.2 entries) (numbered 1 before) : Fill (List (Nat × Nat))).run s =
        .ok (numbered 1 (before ++ after), s') ∧
      IsAt s' (Graph.ofLines (before ++ after)) (1 + 2 * (before ++ after).length) := by
  induction after generalizing s before with
  | nil => exact ⟨s, by rw [List.append_nil]; rfl, by rw [List.append_nil] at h ⊢; exact h⟩
  | cons e after ih =>
    have he := hnamed e (List.mem_append_right _ (List.mem_cons_self ..))
    obtain ⟨hkey, hvalue⟩ := node_ofLines before e after
    have hsize := size_ofLines (before ++ e :: after)
    rw [List.length_append, List.length_cons] at hsize
    have hnew : ∀ p ∈ numbered 1 before, 0 < p.1 ∧ p.1 < 1 + 2 * before.length ∧
        ((Graph.ofLines (before ++ e :: after)).nameValue p.1).sameKey
          ((Graph.ofLines (before ++ e :: after)).nameValue (1 + 2 * before.length)) = false := by
      intro p hp
      obtain ⟨first, e', last, rfl, rfl⟩ := of_mem_numbered hp
      obtain ⟨hother, -⟩ := Graph.nameValue_ofLines first e' (last ++ e :: after)
      obtain ⟨hthis, -⟩ := Graph.nameValue_ofLines (first ++ e' :: last) e after
      rw [← List.cons_append, ← List.append_assoc] at hother
      rw [hother, hthis, List.length_append, List.length_cons]
      exact ⟨by omega, by omega, (List.pairwise_append.1 hdistinct).2.2 e'
        (List.mem_append_right _ (List.mem_cons_self ..)) e (List.mem_cons_self ..)⟩
    obtain ⟨u, hrun, hu⟩ := h.visit_line (by omega) (by omega) hkey hvalue he hnew
    have hsplit : before ++ e :: after = (before ++ [e]) ++ after := by simp
    have hbound : 1 + 2 * before.length + 2 = 1 + 2 * (before ++ [e]).length := by
      rw [List.length_append, List.length_singleton]
      omega
    rw [hsplit] at hnamed hdistinct hu ⊢
    rw [hbound] at hu
    obtain ⟨s', hrest, hs'⟩ := ih _ hu hnamed hdistinct
    refine ⟨s', ?_, hs'⟩
    rw [numbered, List.foldlM_cons, run_bind_ok hrun, hbound, ← hrest, numbered_append]
    rfl

/-- The entries of the mapping of lines are found as they are. -/
theorem IsAt.run_visitEntries (h : IsAt s (Graph.ofLines es) 1) (hnamed : ∀ e ∈ es, IsNamed e)
    (hdistinct : es.Pairwise fun e e' => (plainValue e.1).sameKey (plainValue e'.1) = false)
    (depth : Nat) :
    ∃ s', (visitEntries depth 0).run s = .ok (numbered 1 es, s') ∧
      IsAt s' (Graph.ofLines es) (1 + 2 * es.length) := by
  have hnode : (Graph.ofLines es).node 0 = .mapping (.standard .map) (numbered 1 es) := rfl
  have hplain : ∀ p ∈ ((Graph.ofLines es).node 0).entries,
      (Graph.ofLines es).hasTag p.1 .merge = false ∧
        (Graph.ofLines es).hasTag p.1 .value = false := by
    intro p hp
    obtain ⟨before, e, after, rfl, rfl⟩ := of_mem_numbered hp
    have he := hnamed e (List.mem_append_right _ (List.mem_cons_self ..))
    obtain ⟨hkey, -⟩ := node_ofLines before e after
    simp only [Graph.hasTag, hkey, Node.ofName, Node.tag, implicitTag_of_isIdentifier he.key]
    split
    · exact ⟨rfl, rfl⟩
    · split <;> exact ⟨rfl, rfl⟩
  have htake : (liftM ((Graph.takeOver depth 0).run s.graph) : Fill (Unit × Graph)).run s =
      .ok (((), Graph.ofLines es), s) := by
    rw [h.graph, Graph.run_takeOver hplain]
    rfl
  obtain ⟨s', hrun, hs'⟩ := IsAt.visit_lines [] h hnamed hdistinct
  refine ⟨s', ?_, hs'⟩
  rw [visitEntries, run_bind_ok (run_get s), run_bind_ok htake, run_bind_ok (a := ()) (u := s)]
  · exact hrun
  · show Except.ok ((), { s with graph := Graph.ofLines es }) = .ok ((), s)
    rw [← h.graph]

/-- Nothing is filled where nothing waits. -/
theorem run_fillAll_of_waiting (h : s.waiting = []) (depth rounds : Nat) :
    (fillAll depth rounds).run s = .ok ((), s) := by
  cases rounds with
  | zero => rfl
  | succ rounds =>
    rw [fillAll, run_bind_ok (run_get s), h]
    rfl

/-- One round is enough if only one node waits, and no other one is met in it. -/
theorem run_fillAll_of_singleton {u : Contents} {depth : Nat} (h : s.waiting = [number])
    (hfill : (fill depth number).run { s with waiting := [] } = .ok ((), u))
    (hdone : u.waiting = []) (rounds : Nat) :
    (fillAll depth (rounds + 1)).run s = .ok ((), u) := by
  have hwaits : (!s.waiting.reverse.isEmpty) = true := by
    rw [h]
    rfl
  rw [fillAll, run_bind_ok (run_get s)]
  dsimp only
  rw [if_pos hwaits, run_bind_ok (a := ()) (u := { s with waiting := [] }) rfl,
    run_bind_ok (a := ()) (u := u)]
  · exact run_fillAll_of_waiting hdone _ _
  · rw [h, List.reverse_singleton, List.forM_eq_forM, List.forM_cons, run_bind_ok hfill]
    rfl

/-- The mapping of lines is filled. -/
theorem IsAt.run_fill (h : IsAt s (Graph.ofLines es) 1) (hnamed : ∀ e ∈ es, IsNamed e)
    (hdistinct : es.Pairwise fun e e' => (plainValue e.1).sameKey (plainValue e'.1) = false)
    (depth : Nat) :
    ∃ s', (fill depth 0).run s = .ok ((), s'.learn 0 (.map (numbered 1 es))) ∧
      IsAt s' (Graph.ofLines es) (1 + 2 * es.length) := by
  obtain ⟨s', hrun, hs'⟩ := h.run_visitEntries hnamed hdistinct depth
  have hnode : s.graph.node 0 = .mapping (.standard .map) (numbered 1 es) := by
    rw [h.graph]
    rfl
  refine ⟨s', ?_, hs'⟩
  rw [fill, run_bind_ok (run_get s), hnode]
  dsimp only
  rw [run_bind_ok (a := .map (numbered 1 es)) (u := s')]
  · rfl
  · rw [map_eq_pure_bind, run_bind_ok hrun]
    rfl

end Fill

/-- The contents before a node is met. -/
def Contents.start (g : Graph) : Contents := ⟨g, Array.replicate g.size none, []⟩

theorem Contents.content?_start (g : Graph) (n : Nat) : (start g).content? n = none := by
  simp only [content?, start, Array.getElem?_replicate]
  split <;> rfl

/-- Once its mapping is met, no name of the lines is known yet. -/
theorem Fill.isAt_start {g : Graph} (hpos : 0 < g.size) :
    IsAt { (Contents.start g).learn 0 (.list []) with waiting := [] } g 1 := by
  have hsize : (Contents.start g).known.size = g.size := Array.size_replicate
  have hcontent : ∀ n, ((Contents.start g).learn 0 (.list [])).content? n =
      if n = 0 then some (.list []) else none := by
    intro n
    rw [Contents.content?_learn, Contents.content?_start, hsize]
    simp [hpos]
  refine ⟨rfl, rfl, ?_, hcontent 0, fun n hpos hlt => absurd hlt (by omega), fun n hpos _ => ?_⟩
  · simp [Contents.learn, hsize]
  · exact (hcontent n).trans (if_neg (Nat.ne_of_gt hpos))

/-- The contents of lines: the mapping of their entries, and the values of their names. -/
theorem Graph.contents_ofLines (hnamed : ∀ e ∈ es, IsNamed e)
    (hdistinct : es.Pairwise fun e e' => (plainValue e.1).sameKey (plainValue e'.1) = false) :
    ∃ s, (ofLines es).contents 0 = .ok s ∧ s.content? 0 = some (.map (numbered 1 es)) ∧
      ∀ p ∈ numbered 1 es, s.scalar? p.1 = some ((ofLines es).nameValue p.1) ∧
        s.scalar? p.2 = some ((ofLines es).nameValue p.2) := by
  have hsize := size_ofLines es
  -- the mapping is met first, and waits
  have hvisit : (Fill.visit 0).run (.start (ofLines es)) =
      .ok ((), { (Contents.start (ofLines es)).learn 0 (.list []) with waiting := [0] }) := by
    rw [Fill.visit, run_bind_ok (run_get _), Contents.content?_start]
    rfl
  obtain ⟨s, hfill, hs⟩ :=
    (Fill.isAt_start (by omega : 0 < (ofLines es).size)).run_fill hnamed hdistinct
      ((ofLines es).entryCount + 1)
  have hfillAll := Fill.run_fillAll_of_singleton
    (s := { (Contents.start (ofLines es)).learn 0 (.list []) with waiting := [0] }) rfl
    hfill hs.waiting (ofLines es).size
  have hcontent : ∀ n, (s.learn 0 (.map (numbered 1 es))).content? n =
      if n = 0 then some (.map (numbered 1 es)) else s.content? n := by
    intro n
    have hpos : 0 < 1 + 2 * es.length := by omega
    rw [Contents.content?_learn, hs.size, hsize]
    simp [hpos]
  refine ⟨_, ?_, hcontent 0, fun p hp => ?_⟩
  · show ((Fill.visit 0 >>= fun _ => Fill.fillAll _ _).run (.start (ofLines es))).map (·.2) = _
    rw [run_bind_ok hvisit, hfillAll]
    rfl
  · obtain ⟨before, e, after, rfl, rfl⟩ := of_mem_numbered hp
    rw [List.length_append, List.length_cons] at hs
    refine ⟨Contents.scalar?_eq_some_iff.2 ?_, Contents.scalar?_eq_some_iff.2 ?_⟩
    · rw [hcontent, if_neg (by omega)]
      exact hs.names _ (by omega) (by omega)
    · rw [hcontent, if_neg (by omega)]
      exact hs.names _ (by omega) (by omega)

namespace Contents

variable {s : Contents} {root : Nat} {entries : List (Nat × Nat)}

/-- The parts of an entry, as they are unrolled. -/
def unrollEntry (s : Contents) (depth full : Nat) (path : List Nat) (entry : Nat × Nat) :
    Unroll ((Value × Value) × Bool) := do
  let key ← s.unroll depth full path entry.1
  let value ← s.unroll depth full path entry.2
  return ((key.1, value.1), key.2 && value.2)

/-- A mapping that is not known yet is unrolled entry by entry. -/
theorem unroll_map {known : Array (Option Value)} (hroot : s.content? root = some (.map entries))
    (hnew : (known[root]?).join = none) (depth full : Nat) :
    ((s.unroll (depth + 1) full [] root).run known).1.1 =
      .map (((entries.mapM
        (s.unrollEntry depth (full - 1) (if full = 0 then [root] else []))).run known).1.map
        (·.1)) := by
  have hbind : ∀ {α : Type} (job : Unroll α) (next : α → Unroll (Value × Bool)) known,
      (job >>= next).run known = (next (job.run known).1).run (job.run known).2 := fun _ _ _ => rfl
  have hget : (get : Unroll (Array (Option Value))).run known = (known, known) := rfl
  rw [unroll, hbind, hget]
  simp only [hnew, hroot, List.contains_nil, Bool.false_eq_true, if_false]
  generalize (if full = 0 then [root] else []) = path
  have hentry : (fun entry : Nat × Nat => do
      let key ← s.unroll depth (full - 1) path entry.1
      let value ← s.unroll depth (full - 1) path entry.2
      return ((key.1, value.1), key.2 && value.2)) = s.unrollEntry depth (full - 1) path := rfl
  rw [hbind, hentry]
  obtain ⟨parts, found⟩ := (entries.mapM (s.unrollEntry depth (full - 1) path)).run known
  simp only [pure_bind]
  cases parts.all (·.2) <;> rfl

/-- An entry of scalars gives their values. -/
theorem recalls_unrollEntry {e : Nat × Nat} {v w : Value} {depth : Nat} (hs : s.Sound)
    (hdepth : 0 < depth) (hkey : s.scalar? e.1 = some v) (hvalue : s.scalar? e.2 = some w)
    (full : Nat) (path : List Nat) :
    s.Recalls (s.unrollEntry depth full path e) fun part => part.1 = (v, w) := by
  have hpart : ∀ n u, s.scalar? n = some u →
      s.Recalls (s.unroll depth full path n) fun result => result.1 = u := by
    intro n u hn known hknown
    obtain ⟨hnext, hrenders⟩ := recalls_unroll hs depth full path n known hknown
    exact ⟨hnext, (hrenders 0 (Or.inr hdepth)).1 u hn⟩
  refine (hpart e.1 v hkey).bind fun key hk => (hpart e.2 w hvalue).bind fun value hw => .pure ?_
  rw [hk, hw]

/-- The value of a mapping of scalars. -/
theorem value_of_map {valueOf : Nat → Value} (hs : s.Sound)
    (hroot : s.content? root = some (.map entries))
    (hscalars : ∀ e ∈ entries, s.scalar? e.1 = some (valueOf e.1) ∧
      s.scalar? e.2 = some (valueOf e.2)) :
    s.value root = .map (entries.map fun e => (valueOf e.1, valueOf e.2)) := by
  refine (unroll_map hroot (join_getElem?_replicate_none _ root) _ _).trans ?_
  obtain ⟨-, pairs, hfirst, hsecond, hpairs⟩ := Recalls.mapM (fun e he =>
    recalls_unrollEntry hs (Nat.lt_add_left _ (by decide : 0 < fullLevels)) (hscalars e he).1
      (hscalars e he).2 (fullLevels - 1) (if fullLevels = 0 then [root] else [])) _
      (remembers_none s s.graph.size)
  rw [← hsecond, ← hfirst, List.map_map, List.map_map]
  exact congrArg Value.map (List.map_congr_left hpairs)

end Contents

/-! ## The text of a document -/

namespace Source

theorem flatten_joinFirst (portions : List Text) :
    (joinFirst false portions).flatten = portions.flatten := by
  match portions with
  | [] => rfl
  | [_] => rfl
  | _ :: _ :: _ => simp [joinFirst]

/-- Portions without forbidden characters are a text that is not cut off. -/
theorem ofPortions_of_isAllowed {portions : List Text}
    (h : ∀ c ∈ portions.flatten, isAllowed c = true) :
    ofPortions none portions = ⟨portions.flatten, none⟩ := by
  induction portions with
  | nil => rfl
  | cons portion portions ih =>
    rw [List.flatten_cons] at h
    have hfirst : portion.all isAllowed = true :=
      List.all_eq_true.2 fun c hc => h c (List.mem_append_left _ hc)
    rw [ofPortions, if_pos hfirst, ih fun c hc => h c (List.mem_append_right _ hc),
      List.flatten_cons]

/-- ASCII text without control characters is read as it is. -/
theorem ofBytes_encodeAll (h : t.IsAscii) (hallowed : ∀ c ∈ t, isAllowed c = true) :
    ofBytes (Utf8.encodeAll t) = ⟨t, none⟩ := by
  obtain ⟨portions, hportions, rfl⟩ :=
    (TextStream.holds_start h).portions (by decide : 0 < portionLength) (show t.length ≤
      (Utf8.encodeAll t).length + 1 by rw [h.length_encodeAll]; exact Nat.le_succ _)
  rw [ofBytes, hportions]
  show ofPortions none (joinFirst false portions) = _
  rw [ofPortions_of_isAllowed, flatten_joinFirst]
  rwa [flatten_joinFirst]

end Source

/-- A document of lines is made of identifiers, colons, spaces and line feeds. -/
theorem of_mem_document {ended : Bool} {c : CodePoint} (hnamed : ∀ e ∈ es, IsNamed e)
    (h : c ∈ document ended es) :
    c.isOfIdentifier = true ∨ c = 58 ∨ c = 32 ∨ c = Text.lf := by
  induction es with
  | nil => cases h
  | cons e es ih =>
    obtain ⟨he, hnamed⟩ := List.forall_mem_cons.1 hnamed
    rw [document_cons, List.mem_append, List.mem_cons, List.mem_cons,
      List.mem_append, afterLine] at h
    obtain hkey | rfl | rfl | hvalue | hafter := h
    · exact Or.inl (Text.isIdentifier.forall_mem he.key c hkey)
    · exact Or.inr (Or.inl rfl)
    · exact Or.inr (Or.inr (Or.inl rfl))
    · exact Or.inl (Text.isIdentifier.forall_mem he.value c hvalue)
    · split at hafter
      · cases hafter
      · obtain rfl | hrest := List.mem_cons.1 hafter
        · exact Or.inr (Or.inr (Or.inr rfl))
        · exact ih hnamed hrest

/-- A document of lines is read as it is. -/
theorem ofBytes_document (ended : Bool) (hnamed : ∀ e ∈ es, IsNamed e) :
    Source.ofBytes (Utf8.encodeAll (document ended es)) = ⟨document ended es, none⟩ := by
  have hval : ∀ c ∈ document ended es, c.val = 10 ∨ 32 ≤ c.val ∧ c.val < 127 := by
    intro c hc
    obtain hname | rfl | rfl | rfl := of_mem_document hnamed hc
    · have hval := CodePoint.val_of_isOfIdentifier hname
      omega
    · exact Or.inr ⟨by decide, by decide⟩
    · exact Or.inr ⟨by decide, by decide⟩
    · exact Or.inl rfl
  refine Source.ofBytes_encodeAll (fun c hc => ⟨by have := hval c hc; omega, ?_⟩) fun c hc => ?_
  · rintro rfl
    have hcr := hval _ hc
    revert hcr
    decide
  · obtain hlf | ⟨hlow, hhigh⟩ := hval c hc
    · simp [isAllowed, hlf]
    · have hle : c.val ≤ 0x7E := by omega
      simp [isAllowed, hlow, hle]

/-- The value of a document of lines whose keys are apart and not too long. -/
theorem readBytes_document (ended : Bool) (hnamed : ∀ e ∈ es, IsNamed e)
    (hshort : ∀ e ∈ es, e.1.length ≤ Scan.maxKeyLength)
    (hdistinct : es.Pairwise fun e e' => (plainValue e.1).sameKey (plainValue e'.1) = false) :
    readBytes (Utf8.encodeAll (document ended es)) =
      .ok (if es.isEmpty then .null
        else .map (es.map fun e => (plainValue e.1, plainValue e.2))) := by
  have hread : Source.readText false (document ended es) =
      .ok (if es.isEmpty then .null
        else .map (es.map fun e => (plainValue e.1, plainValue e.2))) := by
    rw [Source.readText, Token.scan_document ended hnamed hshort]
    dsimp only
    rw [Node.ofTokens_lines]
    cases hempty : es.isEmpty with
    | true => rfl
    | false =>
      obtain ⟨s, hs, hroot, hscalars⟩ := Graph.contents_ofLines hnamed hdistinct
      have hvalue := (Contents.value_of_map (Graph.sound_of_contents hs) hroot hscalars).trans
        (congrArg Value.map (Graph.map_numbered [] es))
      simp only [bind, Except.bind, Bool.false_eq_true, if_false, hs, pure, Except.pure]
      exact congrArg Except.ok hvalue
  rw [readBytes, ofBytes_document ended hnamed, Source.value]
  simp only [Option.isSome_none, hread]
  rfl

/-- A document with a key that is too long breaks the rules of the format. -/
theorem readBytes_document_of_long (ended : Bool) (hnamed : ∀ e ∈ es, IsNamed e)
    (hlong : ∃ e ∈ es, Scan.maxKeyLength < e.1.length) :
    readBytes (Utf8.encodeAll (document ended es)) = .error (.document .malformed) := by
  have hread : Source.readText false (document ended es) = .error .malformed := by
    obtain ⟨e, he⟩ := Option.isSome_iff_exists.1
      (List.find?_isSome.2 (by simpa using hlong) :
        (es.find? (Scan.maxKeyLength < ·.1.length)).isSome = true)
    obtain ⟨hfirst, before, after, rfl, hshort⟩ := List.find?_eq_some_iff_append.1 he
    rw [Source.readText, Token.scan_of_long ended hnamed (fun l hl => by simpa using hshort l hl)
      (of_decide_eq_true hfirst)]
    dsimp only
    rw [Node.ofTokens_of_long]
    rfl
  rw [readBytes, ofBytes_document ended hnamed, Source.value]
  simp only [Option.isSome_none, hread]
  rfl

end ImportRepair.Yaml

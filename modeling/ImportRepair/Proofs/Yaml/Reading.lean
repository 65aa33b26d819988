import ImportRepair.Proofs.Yaml.Scanning
import ImportRepair.Yaml.Node

/-!
# The nodes of plain lines

Each line gives two nodes, one for each of its names, and an entry with their numbers. The mapping
of the entries is the first node, since it has its number before its parts are read.

Results:
* `Node.run_readBlockEntries`: each line gives an entry and its nodes.
* `Node.ofTokens_lines`: the nodes of a document of lines.
* `Node.ofTokens_of_long`: there is none if a key is too long.
-/

namespace ImportRepair.Yaml

variable {σ α β : Type} {job : StateT σ (Except Error) α} {next : α → StateT σ (Except Error) β}
  {s u : σ} {a : α}

/-- A step that does not fail. -/
theorem run_bind_ok (h : job.run s = .ok (a, u)) : (job >>= next).run s = (next a).run u := by
  rw [StateT.run_bind, h]
  rfl

theorem run_get (s : σ) : (get : StateT σ (Except Error) σ).run s = .ok (s, s) := rfl

/-- The numbers of the nodes of lines, from a number on. -/
def numbered : (first : Nat) → List (Text × Text) → List (Nat × Nat)
  | _, [] => []
  | first, _ :: es => (first, first + 1) :: numbered (first + 2) es

/-- The node of a plain name. -/
def Node.ofName (t : Text) : Node := .scalar (.standard (implicitTag t)) t

/-- The nodes of a line. -/
def Node.ofLine (e : Text × Text) : List Node := [ofName e.1, ofName e.2]

/-- The nodes of lines, with the mapping of their entries before them. -/
def Graph.ofLines (es : List (Text × Text)) : Graph :=
  (Node.mapping (.standard .map) (numbered 1 es) :: es.flatMap Node.ofLine).toArray

namespace Node

variable {s : Reader} {token : Token} {rest ends : List Token} {t : Text} {e : Text × Text}
  {es : List (Text × Text)} {depth : Nat} {block indentless : Bool}

/-! ## Steps -/

theorem run_peek (h : s.tokens = token :: rest) : peek.run s = .ok (token, s) := by
  simp [peek, h]
  rfl

theorem run_skip (h : s.tokens = token :: rest) :
    skip.run s = .ok ((), { s with tokens := rest }) := by
  show Except.ok ((), { s with tokens := s.tokens.drop 1 }) = _
  rw [h]
  rfl

theorem run_nextIs (h : s.tokens = token :: rest) :
    (nextIs ends).run s = .ok (ends.contains token, s) := by
  rw [nextIs, run_bind_ok (run_peek h)]
  rfl

/-- Neither an anchor nor a tag stands before a token of another kind. -/
theorem run_readProperties (h : s.tokens = token :: rest) (hanchor : ∀ name, token ≠ .anchor name)
    (htag : ∀ handle suffix, token ≠ .tag handle suffix) :
    readProperties.run s = .ok ((none, none), s) := by
  rw [readProperties, run_bind_ok (run_peek h)]
  cases token with
  | anchor name => exact absurd rfl (hanchor name)
  | tag handle suffix => exact absurd rfl (htag handle suffix)
  | _ => rfl

/-- A plain name is a node. -/
theorem run_read_scalar (h : s.tokens = .scalar true t :: rest) :
    (read (depth + 1) block indentless).run s =
      .ok (s.graph.size, { s with tokens := rest, graph := s.graph.push (ofName t) }) := by
  rw [read, run_bind_ok (run_peek h)]
  dsimp only
  rw [run_bind_ok (run_readProperties h nofun nofun)]
  dsimp only
  rw [run_bind_ok (run_peek h)]
  dsimp only
  rw [run_bind_ok (run_skip h)]
  rfl

theorem run_readUnless_scalar (h : s.tokens = .scalar true t :: rest)
    (hends : Token.scalar true t ∉ ends) :
    (readUnless (depth + 2) ends block indentless).run s =
      .ok (s.graph.size, { s with tokens := rest, graph := s.graph.push (ofName t) }) := by
  have hnot : ends.contains (Token.scalar true t) = false := by simpa using hends
  rw [readUnless, run_bind_ok (run_nextIs h), hnot]
  exact run_read_scalar h

/-- A line gives an entry and two nodes. -/
theorem run_readBlockEntries_cons (h : s.tokens = Token.ofLine e ++ rest) :
    (readBlockEntries (depth + 3)).run s =
      ((readBlockEntries (depth + 2)).run
        { s with tokens := rest, graph := s.graph ++ (ofLine e).toArray }).map
        fun (entries, u) => ((s.graph.size, s.graph.size + 1) :: entries, u) := by
  rw [readBlockEntries, run_bind_ok (run_peek h)]
  dsimp only
  rw [run_bind_ok (run_skip h), run_bind_ok (run_readUnless_scalar (by rfl) (by simp))]
  -- the colon, and the second name
  rw [run_bind_ok (a := s.graph.size + 1)
    (u := { s with tokens := rest, graph := s.graph ++ (ofLine e).toArray })]
  · rw [StateT.run_bind]
    cases (readBlockEntries (depth + 2)).run
      { s with tokens := rest, graph := s.graph ++ (ofLine e).toArray } <;> rfl
  · rw [run_bind_ok (run_peek (by rfl)), if_pos rfl, run_bind_ok (run_skip (by rfl))]
    rw [run_readUnless_scalar (t := e.2) (by rfl) (by simp)]
    have hpush : (s.graph.push (ofName e.1)).push (ofName e.2) = s.graph ++ (ofLine e).toArray :=
      Array.ext' (by simp [ofLine])
    rw [← hpush]
    simp

/-- Each line gives an entry and two nodes, in their order. -/
theorem run_readBlockEntries (h : s.tokens = es.flatMap Token.ofLine ++ rest) (depth : Nat) :
    (readBlockEntries (depth + 2 + es.length)).run s =
      ((readBlockEntries (depth + 2)).run
        { s with tokens := rest, graph := s.graph ++ (es.flatMap ofLine).toArray }).map
          fun (entries, u) => (numbered s.graph.size es ++ entries, u) := by
  induction es generalizing s with
  | nil =>
    obtain ⟨tokens, error, handles, anchors, graph, level⟩ := s
    simp only [List.flatMap_nil, List.nil_append] at h
    subst h
    simp only [List.length_nil, Nat.add_zero, List.flatMap_nil, Array.append_empty, numbered,
      List.nil_append]
    cases (readBlockEntries (depth + 2)).run ⟨tokens, error, handles, anchors, graph, level⟩ <;> rfl
  | cons e es ih =>
    rw [List.flatMap_cons, List.append_assoc] at h
    have hdepth : depth + 2 + (e :: es).length = depth + es.length + 3 := by
      rw [List.length_cons]
      omega
    have hgraph : s.graph ++ (ofLine e).toArray ++ (es.flatMap ofLine).toArray =
        s.graph ++ ((e :: es).flatMap ofLine).toArray := by simp
    have hsize : (s.graph ++ (ofLine e).toArray).size = s.graph.size + 2 := by simp [ofLine]
    rw [hdepth, run_readBlockEntries_cons h, Nat.add_right_comm, ih rfl]
    simp only [hgraph, hsize, numbered]
    cases (readBlockEntries (depth + 2)).run
      { s with tokens := rest, graph := s.graph ++ ((e :: es).flatMap ofLine).toArray } <;> rfl

/-- At the token that ends a block mapping there are no more entries. -/
theorem run_readBlockEntries_end (h : s.tokens = .blockEnd :: rest) :
    (readBlockEntries (depth + 1)).run s = .ok ([], { s with tokens := rest }) := by
  rw [readBlockEntries, run_bind_ok (run_peek h)]
  dsimp only
  rw [expect, run_bind_ok (a := ()) (u := { s with tokens := rest })]
  · rfl
  · rw [run_bind_ok (run_peek h), if_pos rfl, run_skip h]

/-- A name that is no key is no part of a block mapping. -/
theorem run_readBlockEntries_scalar (h : s.tokens = .scalar true t :: rest) :
    (readBlockEntries (depth + 1)).run s = .error .malformed := by
  rw [readBlockEntries, run_bind_ok (run_peek h)]
  dsimp only
  rw [expect, StateT.run_bind, run_bind_ok (run_peek h), if_neg nofun]
  rfl

/-- A collection without a name has its number before its parts are read. -/
theorem run_addCollection (h : s.level < maxLevel) (readParts : Read Node) :
    (addCollection none readParts).run s =
      (readParts.run { s with graph := s.graph.push absent, level := s.level + 1 }).map
        fun (node, u) =>
          (s.graph.size, { u with
            graph := u.graph.change s.graph.size fun _ => node
            level := u.level - 1 }) := by
  have hadd : (add none absent).run s =
    .ok (s.graph.size, { s with graph := s.graph.push absent }) := rfl
  have hlevel : ¬maxLevel ≤ s.level := Nat.not_le.2 h
  rw [addCollection, run_bind_ok hadd]
  rw [run_bind_ok (run_get _), if_neg hlevel, run_bind_ok (a := ()) (u := { s with
    graph := s.graph.push absent, level := s.level + 1 }) (by rfl), StateT.run_bind]
  cases readParts.run { s with graph := s.graph.push absent, level := s.level + 1 } <;> rfl

/-- A block mapping. -/
theorem run_read_mapping (h : s.tokens = .blockMappingStart :: rest) (hlevel : s.level < maxLevel) :
    (read (depth + 1) true indentless).run s =
      ((readBlockEntries depth).run
        { s with tokens := rest, graph := s.graph.push absent, level := s.level + 1 }).map
        fun (entries, u) =>
          (s.graph.size, { u with
            graph := u.graph.change s.graph.size fun _ => .mapping (.standard .map) entries
            level := u.level - 1 }) := by
  rw [read, run_bind_ok (run_peek h)]
  dsimp only
  rw [run_bind_ok (run_readProperties h nofun nofun)]
  dsimp only
  rw [run_bind_ok (run_peek h)]
  dsimp only
  have hindentless : ¬(indentless && decide (Token.blockMappingStart = .blockEntry)) = true := by
    simp
  have hsequence : ¬(true && decide (Token.blockMappingStart = .blockSequenceStart)) = true := by
    decide
  rw [if_neg hindentless, if_neg hsequence, if_pos (by decide), run_bind_ok (run_skip h),
    run_addCollection (by exact hlevel), StateT.run_bind]
  cases (readBlockEntries depth).run
    { s with tokens := rest, graph := s.graph.push absent, level := s.level + 1 } <;> rfl

/-! ## Documents -/

/-- Nothing but the end may follow the root of a document. -/
def readEnding (root : Nat) : Read (Option Nat) := do
  let _ ← peek
  skipEnds (← get).tokens
  if (← peek) ≠ .streamEnd then refuseNext
  return some root

/-- A document without directives and markers is its root. -/
theorem run_readDocument (h : s.tokens = token :: rest) (hend : token ≠ .streamEnd)
    (hstart : (isDirective token || token = .documentStart) = false) :
    (readDocument depth).run s =
      (read depth true false >>= readEnding).run { s with handles := defaultHandles } := by
  rw [readDocument, run_bind_ok (run_peek h), if_neg hend]
  simp only [hstart, Bool.false_eq_true, if_false]
  rfl

theorem run_readEnding (root : Nat) (h : s.tokens = [.streamEnd]) :
    (readEnding root).run s = .ok (some root, s) := by
  rw [readEnding, run_bind_ok (run_peek h), run_bind_ok (run_get s), h,
    run_bind_ok (a := ()) (u := s) rfl, run_bind_ok (run_peek h), if_neg (by simp)]
  rfl

/-- Tokens that end too early end the reading with their error. -/
theorem run_readEnding_of_nil (root : Nat) (h : s.tokens = []) :
    (readEnding root).run s = .error (s.error.getD .malformed) := by
  have hpeek : peek.run s = .error (s.error.getD .malformed) := by
    simp [peek, h]
    rfl
  rw [readEnding, StateT.run_bind, hpeek]
  rfl

theorem ofLines_eq (h : es ≠ []) :
    Token.ofLines es = .blockMappingStart :: es.flatMap Token.ofLine := by
  rw [Token.ofLines, if_neg (by simpa using h)]

theorem length_ofLines_le (es : List (Text × Text)) : es.length ≤ (Token.ofLines es).length := by
  induction es with
  | nil => exact Nat.le_refl _
  | cons e es ih =>
    rw [ofLines_eq (List.cons_ne_nil e es), List.length_cons, List.length_cons, List.flatMap_cons,
      List.length_append]
    rw [Token.ofLines] at ih
    split at ih
    · simp_all
    · rw [List.length_cons] at ih
      have hline : (Token.ofLine e).length = 4 := rfl
      omega

/-- Lines are a block mapping of their entries, up to what ends them. -/
theorem run_read_lines {s : Reader}
    (h : s.tokens = .blockMappingStart :: (es.flatMap Token.ofLine ++ rest))
    (hlevel : s.level < maxLevel) (depth : Nat) :
    (read (depth + 2 + es.length + 1) true indentless).run s =
      ((readBlockEntries (depth + 2)).run { s with
        tokens := rest
        graph := s.graph.push absent ++ (es.flatMap ofLine).toArray
        level := s.level + 1 }).map fun (entries, u) => (s.graph.size, { u with
          graph := u.graph.change s.graph.size fun _ =>
            .mapping (.standard .map) (numbered (s.graph.size + 1) es ++ entries)
          level := u.level - 1 }) := by
  rw [run_read_mapping h hlevel, run_readBlockEntries rfl]
  simp only [Array.size_push]
  cases (readBlockEntries (depth + 2)).run { s with
    tokens := rest
    graph := s.graph.push absent ++ (es.flatMap ofLine).toArray
    level := s.level + 1 } <;> rfl

/-- There are more tokens than entries, so the depth that they give is enough. -/
theorem exists_depth (es : List (Text × Text)) (ends : List Token) : ∃ depth,
    4 * (Token.ofLines es ++ ends).length + 16 = depth + 2 + es.length + 1 := by
  have hlength := length_ofLines_le es
  refine ⟨4 * (Token.ofLines es ++ ends).length + 13 - es.length, ?_⟩
  rw [List.length_append]
  omega

/-- The nodes of a document of lines. -/
theorem ofTokens_lines (es : List (Text × Text)) :
    ofTokens (Token.ofLines es ++ Scan.endOfLines es) none =
      .ok (if es.isEmpty then none else some (0, Graph.ofLines es)) := by
  by_cases hes : es = []
  · subst hes
    rfl
  have hempty : es.isEmpty = false := by simpa using hes
  obtain ⟨depth, hdepth⟩ := exists_depth es (Scan.endOfLines es)
  have htokens : Token.ofLines es ++ Scan.endOfLines es =
      .blockMappingStart :: (es.flatMap Token.ofLine ++ [.blockEnd, .streamEnd]) := by
    rw [ofLines_eq hes, Scan.endOfLines, hempty]
    rfl
  have hgraph : Graph.change (#[absent] ++ (es.flatMap ofLine).toArray) 0
      (fun _ => .mapping (.standard .map) (numbered 1 es)) = Graph.ofLines es := by
    apply Array.ext'
    simp [Graph.change, Graph.ofLines]
  have hroot : (read (depth + 2 + es.length + 1) true false).run
      ⟨_, none, defaultHandles, [], #[], 0⟩ = _ :=
    run_read_lines htokens (by decide : 0 < maxLevel) depth
  rw [run_readBlockEntries_end rfl] at hroot
  have hrun : (readDocument (depth + 2 + es.length + 1)).run ⟨_, none, [], [], #[], 0⟩ = _ :=
    run_readDocument htokens (by simp) rfl
  rw [run_bind_ok hroot, run_readEnding _ (by rfl)] at hrun
  show ((readDocument (4 * (Token.ofLines es ++ Scan.endOfLines es).length + 16)).run
    ⟨Token.ofLines es ++ Scan.endOfLines es, none, [], [], #[], 0⟩).map _ = _
  rw [hdepth, hrun, hempty, ← hgraph]
  simp [Except.map]

/-- A name that is no key ends the reading. -/
theorem ofTokens_of_long (es : List (Text × Text)) (t : Text) :
    ofTokens (Token.ofLines es ++ [.scalar true t]) (some .malformed) = .error .malformed := by
  suffices hrun : (readDocument (4 * (Token.ofLines es ++ [Token.scalar true t]).length + 16)).run
      ⟨Token.ofLines es ++ [.scalar true t], some .malformed, [], [], #[], 0⟩ = .error .malformed by
    show ((readDocument _).run _).map _ = _
    rw [hrun]
    rfl
  by_cases hes : es = []
  · subst hes
    show (readDocument (18 + 2)).run ⟨[.scalar true t], some .malformed, [], [], #[], 0⟩ = _
    rw [run_readDocument rfl (by simp) rfl, run_bind_ok (run_read_scalar rfl),
      run_readEnding_of_nil _ (by rfl)]
    rfl
  obtain ⟨depth, hdepth⟩ := exists_depth es [Token.scalar true t]
  have htokens : Token.ofLines es ++ [Token.scalar true t] =
      .blockMappingStart :: (es.flatMap Token.ofLine ++ [Token.scalar true t]) := by
    rw [ofLines_eq hes]
    rfl
  have hroot : (read (depth + 2 + es.length + 1) true false).run
      ⟨_, some .malformed, defaultHandles, [], #[], 0⟩ = _ :=
      run_read_lines htokens (by decide : 0 < maxLevel) depth
  rw [run_readBlockEntries_scalar rfl] at hroot
  rw [hdepth, run_readDocument (by exact htokens) (by simp) rfl, StateT.run_bind, hroot]
  rfl

end Node

end ImportRepair.Yaml

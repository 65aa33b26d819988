import ImportRepair.Proofs.Files.Shape
import ImportRepair.Proofs.Files.Tracing
import ImportRepair.Proofs.Text.Utf8

/-!
# Files that can be opened

A path that can be opened stands for the file at one place, and that place is its real path. Which
paths can be opened, and where, depends on the shape of the tree alone.

Results:
* `lookUp_plain`: a path and its plain form lead to the same place.
* `realPath_of_opened?`: the real path of a path that can be opened.
* `SameShape.opened?`: the shape decides which paths can be opened.
* `readBytes_of_opened?`: what is read from a path that can be opened.
-/

namespace ImportRepair

/-! ## Plain forms -/

namespace Path

theorem names_replicate_slash (k : Nat) (path : Text) :
    names (List.replicate k slash ++ path) = List.replicate k [] ++ names path := by
  induction k with
  | zero => rfl
  | succ k ih =>
    rw [List.replicate_succ, List.cons_append, names_slash_cons, ih, List.replicate_succ,
      List.cons_append]

/-- The names of a path that stand for something. -/
def busyNames (path : Text) : List Text := (names path).filter fun name => !isIdle name

theorem busyNames_slashes (k : Nat) (path : Text) :
    busyNames (List.replicate k slash ++ path) = busyNames path := by
  rw [busyNames, names_replicate_slash, List.filter_append, List.filter_eq_nil_iff.2,
    List.nil_append, busyNames]
  intro name hname
  rw [List.eq_of_mem_replicate hname, isIdle_nil]
  simp

theorem busyNames_join (path : Text) :
    busyNames (Text.join [slash] (busyNames path)) = busyNames path := by
  by_cases hne : busyNames path = []
  · rw [hne]
    rfl
  · have hslash : ∀ name ∈ busyNames path, slash ∉ name :=
      fun name hname => noSlash_of_mem_names (List.mem_filter.1 hname).1
    conv_lhs => rw [busyNames, names, Text.splitAt_join hne hslash]
    rw [busyNames, List.filter_filter]
    simp only [Bool.and_self]

theorem display_of (path : Text) :
    plain path = here ∧ busyNames path = [] ∧ (PlainPath.of path).root = [] ∨
      plain path = (PlainPath.of path).root ++ Text.join [slash] (busyNames path) := by
  rw [plain, PlainPath.display]
  split
  · next h => exact Or.inl ⟨rfl, h.2, h.1⟩
  · exact Or.inr rfl

theorem busyNames_plain (path : Text) : busyNames (plain path) = busyNames path := by
  obtain ⟨hplain, hnil, _⟩ | hplain := display_of path
  · rw [hplain, hnil]
    decide
  · rw [hplain, PlainPath.of, busyNames_slashes, busyNames_join]

theorem head?_join_busyNames (path : Text) :
    (Text.join [slash] (busyNames path)).head? ≠ some slash := by
  cases hb : busyNames path with
  | nil => simp [Text.join]
  | cons name rest =>
    have hmem : name ∈ busyNames path := by
      rw [hb]
      exact List.mem_cons_self ..
    obtain ⟨hname, hbusy⟩ := List.mem_filter.1 hmem
    have hhead : (Text.join [slash] (name :: rest)).head? = name.head? := by
      cases name with
      | nil => simp [isIdle] at hbusy
      | cons c name => cases rest <;> rfl
    rw [hhead]
    intro hc
    exact noSlash_of_mem_names hname (List.mem_of_head? hc)

/-- A path is absolute exactly if its plain form starts with something. -/
theorem isAbsolute_iff_root (path : Text) :
    isAbsolute path = true ↔ (PlainPath.of path).root ≠ [] := by
  cases path with
  | nil => decide
  | cons c path =>
    by_cases hc : c = slash
    · subst hc
      simp [PlainPath.of, isAbsolute]
      split <;> omega
    · simp [PlainPath.of, isAbsolute, hc]

theorem isAbsolute_plain (path : Text) : isAbsolute (plain path) = isAbsolute path := by
  rw [Bool.eq_iff_iff, isAbsolute_iff_root path]
  obtain ⟨hplain, _, hnil⟩ | hplain := display_of path
  · rw [hplain, hnil]
    decide
  · rw [hplain, isAbsolute, decide_eq_true_eq]
    cases hr : (PlainPath.of path).root with
    | nil => simpa using head?_join_busyNames path
    | cons c root =>
      have hc : c = slash := by
        apply List.eq_of_mem_replicate (n := _)
        rw [PlainPath.of] at hr
        simp only at hr
        rw [hr]
        exact List.mem_cons_self ..
      simp [hc]

end Path

namespace FileTree

variable {tree : FileTree}

/-- A path and its plain form lead to the same place, if they lead anywhere. -/
theorem lookUp_plain {path : Text} {p q : Place} {n m : Node} (h : tree.lookUp path = .ok (p, n))
    (hplain : tree.lookUp (Path.plain path) = .ok (q, m)) : q = p ∧ m = n := by
  obtain ⟨_, _, k, _, hf⟩ := follows_of_lookUp h
  obtain ⟨_, _, j, _, hg⟩ := follows_of_lookUp hplain
  have hstart : tree.start (Path.plain path) = tree.start path := by
    rw [start, start, Place.startOf, Place.startOf, Path.isAbsolute_plain]
  have hf := hf.prune (Pruned.filter _)
  have hg := hg.prune (Pruned.filter _)
  have hnames := Path.busyNames_plain path
  rw [Path.busyNames, Path.busyNames] at hnames
  rw [hstart, hnames] at hg
  obtain ⟨_, hp, hn⟩ := hg.unique hf
  exact ⟨hp, hn⟩

/-! ## Opening -/

/-- A tree as a file system keeps it: the working directory and the directories around it exist,
every link has a target that can be a path, and every file has a content. -/
structure Sound (tree : FileTree) : Prop where
  working : tree.Solid tree.working
  links : tree.HasCleanLinks
  contents : ∀ p c, tree.node? p = some (.file c) → c < tree.contents.length

/-- The entries of a sound tree. -/
def Fits (count : Nat) : Node → Prop
  | .directory => True
  | .file c => c < count
  | .link target => Path.IsClean target

instance (count : Nat) (n : Node) : Decidable (Fits count n) := by
  cases n <;> unfold Fits <;> infer_instance

theorem mem_nodes_of_node? {p : Place} {n : Node} (h : tree.node? p = some n) :
    p = [] ∧ n = .directory ∨ (p, n) ∈ tree.nodes := by
  rw [node?] at h
  split at h
  · next hp =>
    cases h
    exact Or.inl ⟨hp, rfl⟩
  · obtain ⟨before, rest, hnodes, _⟩ := List.lookup_eq_some_iff.1 h
    refine Or.inr ?_
    rw [hnodes]
    simp

/-- A tree is sound if its entries fit. -/
theorem sound_of_fits (hw : tree.Solid tree.working)
    (h : ∀ entry ∈ tree.nodes, Fits tree.contents.length entry.2) : tree.Sound where
  working := hw
  links p target hp := by
    obtain ⟨_, hn⟩ | hmem := mem_nodes_of_node? hp
    · cases hn
    · exact h _ hmem
  contents p c hp := by
    obtain ⟨_, hn⟩ | hmem := mem_nodes_of_node? hp
    · cases hn
    · exact h _ hmem

/-- The place of the file that a path opens. -/
def opened? (tree : FileTree) (path : Text) : Option Place :=
  match tree.isOpenableFile path, tree.lookUp path with
  | .ok true, .ok (place, _) => some place
  | _, _ => none

theorem isOpenableFile_eq_true {path : Text} (h : tree.isOpenableFile path = .ok true) :
    Path.IsClean path ∧ ∃ p c, tree.lookUp path = .ok (p, .file c) := by
  unfold isOpenableFile at h
  cases hf : tree.isFile path with
  | error e => rw [hf] at h; cases h
  | ok b =>
    cases b with
    | false => rw [hf] at h; cases h
    | true =>
      rw [hf] at h
      simp only [Except.ok.injEq] at h
      unfold isAccessible at h
      cases hc : checkPath path with
      | error e => rw [hc] at h; cases h
      | ok u =>
        refine ⟨checkPath_eq_ok_iff.1 hc, ?_⟩
        cases hl : tree.lookUp path with
        | error e => rw [hc, hl] at h; cases h
        | ok found =>
          obtain ⟨p, n⟩ := found
          unfold isFile at hf
          simp only at hf
          cases hc' : checkPath (Path.plain path) with
          | error e => rw [hc'] at hf; cases hf
          | ok u' =>
            cases hl' : tree.lookUp (Path.plain path) with
            | error code =>
              rw [hc', hl'] at hf
              simp only at hf
              split at hf <;> cases hf
            | ok found' =>
              obtain ⟨q, m⟩ := found'
              obtain ⟨rfl, rfl⟩ := lookUp_plain hl hl'
              rw [hc', hl'] at hf
              cases m with
              | file c => exact ⟨_, _, rfl⟩
              | directory => cases hf
              | link target => cases hf

theorem opened?_eq_some {path : Text} {p : Place} (h : tree.opened? path = some p) :
    tree.isOpenableFile path = .ok true ∧ Path.IsClean path ∧
      ∃ c, tree.lookUp path = .ok (p, .file c) := by
  unfold opened? at h
  split at h
  · next hopen hl =>
    cases h
    obtain ⟨hclean, q, c, hq⟩ := isOpenableFile_eq_true hopen
    rw [hl] at hq
    cases hq
    exact ⟨hopen, hclean, c, hl⟩
  · cases h

theorem opened?_of_isOpenableFile {path : Text} (h : tree.isOpenableFile path = .ok true) :
    ∃ p, tree.opened? path = some p := by
  obtain ⟨_, p, c, hl⟩ := isOpenableFile_eq_true h
  exact ⟨p, by rw [opened?, h, hl]⟩

/-- A path that cannot be opened opens no file. -/
theorem opened?_eq_none {path : Text} (h : tree.isOpenableFile path ≠ .ok true) :
    tree.opened? path = none := by
  cases ho : tree.opened? path with
  | none => rfl
  | some p => exact absurd (opened?_eq_some ho).1 h

theorem SameShape.opened? {a b : FileTree} (h : SameShape a b) (path : Text) :
    a.opened? path = b.opened? path := by
  cases ha : a.opened? path with
  | some p =>
    obtain ⟨hopen, _, c, hl⟩ := opened?_eq_some ha
    obtain ⟨c', hl'⟩ := h.lookUp_file hl
    rw [h.isOpenableFile] at hopen
    rw [FileTree.opened?, hopen, hl']
  | none =>
    apply (opened?_eq_none _).symm
    intro hopen
    rw [← h.isOpenableFile] at hopen
    obtain ⟨p, hp⟩ := opened?_of_isOpenableFile hopen
    rw [hp] at ha
    cases ha

/-- The real path of a path that can be opened is the path of the place. -/
theorem realPath_of_opened? (hs : tree.Sound) {path : Text} {p : Place}
    (h : tree.opened? path = some p) : tree.realPath path = .ok (.ofPlace p) := by
  obtain ⟨_, hclean, c, hl⟩ := opened?_eq_some h
  exact realPath_of_lookUp hs.links hclean hl

theorem ofPlace_injective : Function.Injective PlainPath.ofPlace := by
  intro p q h
  exact List.reverse_injective (congrArg PlainPath.names h)

/-- Where a path that can be opened stands. -/
theorem settled_of_opened? (hs : tree.Sound) {path : Text} {p : Place}
    (h : tree.opened? path = some p) :
    tree.Settled p ∧ ∃ c, tree.node? p = some (.file c) ∧ tree.lookUp path = .ok (p, .file c) := by
  obtain ⟨_, hclean, c, hl⟩ := opened?_eq_some h
  obtain ⟨_, _, k, _, hf⟩ := follows_of_lookUp hl
  have hnames : ∀ name ∈ Path.names path, Path.slash ∉ name ∧ Path.IsClean name :=
    fun name hname => ⟨Path.noSlash_of_mem_names hname, Path.isClean_of_mem_names hclean hname⟩
  obtain ⟨hn, _⟩ | ⟨_, hn, hp⟩ := hf.solid hs.links (solid_startOf hs.working path) hnames
  · cases hn
  · exact ⟨hp, c, hn, hl⟩

/-! ## Contents of places -/

/-- The bytes of the file at a place. -/
def bytesAt? (tree : FileTree) (p : Place) : Option (List UInt8) :=
  match tree.node? p with
  | some (.file c) => (tree.content? c).map (·.bytes)
  | _ => none

/-- The text of the file at a place, if its bytes are one. -/
def textAt? (tree : FileTree) (p : Place) : Option Text :=
  (tree.bytesAt? p).bind fun bytes => (Utf8.decode bytes).toOption

theorem bytesAt?_of_node? {p : Place} {c : Nat} (h : tree.node? p = some (.file c)) :
    tree.bytesAt? p = (tree.content? c).map (·.bytes) := by
  rw [bytesAt?, h]

theorem Sound.bytesAt? (hs : tree.Sound) {p : Place} {c : Nat}
    (h : tree.node? p = some (.file c)) : ∃ bytes, tree.bytesAt? p = some bytes := by
  have hc := hs.contents p c h
  refine ⟨(tree.contents[c]).bytes, ?_⟩
  rw [bytesAt?_of_node? h, content?, List.getElem?_eq_getElem hc, Option.map_some]

/-- Reading a path that can be opened gives the bytes of the file at its place. -/
theorem readBytes_of_opened? (hs : tree.Sound) {path : Text} {p : Place}
    (h : tree.opened? path = some p) :
    ∃ bytes, tree.bytesAt? p = some bytes ∧ tree.readBytes path = .ok bytes := by
  obtain ⟨_, c, hn, hl⟩ := settled_of_opened? hs h
  obtain ⟨_, hclean, _⟩ := opened?_eq_some h
  obtain ⟨bytes, hb⟩ := hs.bytesAt? hn
  refine ⟨bytes, hb, ?_⟩
  have hc : tree.contentAt path = .ok c := by
    rw [contentAt, checkPath_eq_ok_iff.2 hclean, hl]
    rfl
  rw [bytesAt?_of_node? hn] at hb
  rw [readBytes, hc]
  show Except.ok (((tree.content? c).map (·.bytes)).getD []) = .ok bytes
  rw [hb, Option.getD_some]

theorem isScalar_of_textAt? {p : Place} {t : Text} (h : tree.textAt? p = some t) :
    t.isScalar = true := by
  obtain ⟨bytes, _, hd⟩ := Option.bind_eq_some_iff.1 h
  cases hdec : Utf8.decode bytes with
  | error e => rw [hdec] at hd; cases hd
  | ok u =>
    rw [hdec] at hd
    cases hd
    exact Utf8.isScalar_of_decode hdec

end FileTree

end ImportRepair

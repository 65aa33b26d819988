import ImportRepair.Text.Width

/-!
# Clusters

A cluster is what a terminal draws as one sign: a character with the marks on it and the characters
joined to it. Text is cut between clusters only.

Results:
* `flatten_clusters`: the clusters are the text, with nothing lost.
-/

namespace ImportRepair

/-- Code points that are drawn as one sign, and the number of its cells. -/
structure Cluster where
  text : Text
  cells : Nat
deriving DecidableEq, Repr

namespace Cluster

/-- The cluster of one code point. -/
def single (c : CodePoint) : Cluster := ⟨[c], c.cells⟩

/-- The cluster with a code point more and some cells more. -/
def grow (cluster : Cluster) (c : CodePoint) (cells : Nat) : Cluster :=
  ⟨cluster.text ++ [c], cluster.cells + cells⟩

end Cluster

namespace Text

/-- The clusters of a text after the start of one. `last` is the last character with a width that
may still become wide, and `joined` says whether a joiner stands before the next one. -/
def clustersFrom (cluster : Cluster) (last : Option CodePoint) (joined : Bool) : Text → List Cluster
  | [] => [cluster]
  | c :: t =>
    if joined then clustersFrom (cluster.grow c 0) last false t
    else if c = CodePoint.joiner then clustersFrom (cluster.grow c 0) last true t
    else if c = CodePoint.emojiSign && last.any CodePoint.hasEmojiForm then
      clustersFrom (cluster.grow c 1) none false t
    else if c.cells = 0 then clustersFrom (cluster.grow c 0) last false t
    else cluster :: clustersFrom (.single c) (some c) false t

/-- The clusters of a text. -/
def clusters : Text → List Cluster
  | [] => []
  | c :: t => clustersFrom (.single c) (if c.cells = 0 then none else some c) false t

theorem flatten_clustersFrom (cluster : Cluster) (last : Option CodePoint) (joined : Bool)
    (t : Text) :
    ((clustersFrom cluster last joined t).map (·.text)).flatten = cluster.text ++ t := by
  induction t generalizing cluster last joined with
  | nil => simp [clustersFrom]
  | cons c t ih =>
    rw [clustersFrom]
    split
    · simp [ih, Cluster.grow]
    · split
      · simp [ih, Cluster.grow]
      · split
        · simp [ih, Cluster.grow]
        · split
          · simp [ih, Cluster.grow]
          · simp [ih, Cluster.single]

theorem flatten_clusters (t : Text) : ((clusters t).map (·.text)).flatten = t := by
  cases t with
  | nil => rfl
  | cons c t => simp [clusters, flatten_clustersFrom, Cluster.single]

end Text

end ImportRepair

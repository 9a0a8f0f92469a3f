import RespStore.Number.Binary64
import RespStore.SortedSet.Bound
import RespStore.Span
import RespStore.Table

/-! Sorted sets: members with scores, listed by score and, at equal scores, by their bytes. -/
namespace RespStore

/-- A table of scores by member, and the same pairs in listing order. -/
structure SortedSet where
  scores : Table Binary64
  ordered : List (Binary64 × Bytes)
  deriving DecidableEq, Repr

inductive Insertion where
  | added
  | updated
  | unchanged
  deriving DecidableEq, Repr

namespace SortedSet

/-- The listing order. It tells the two zeros apart, though no score that is kept is negative
zero. -/
def Precedes (a b : Binary64 × Bytes) : Prop :=
  a.1.totalPlace < b.1.totalPlace ∨ (a.1.totalPlace = b.1.totalPlace ∧ a.2 < b.2)

instance (a b : Binary64 × Bytes) : Decidable (Precedes a b) :=
  inferInstanceAs (Decidable (_ ∨ _))

def insertOrdered (pair : Binary64 × Bytes) : List (Binary64 × Bytes) → List (Binary64 × Bytes)
  | [] => [pair]
  | p :: rest =>
    if Precedes pair p then pair :: p :: rest
    else if Precedes p pair then p :: insertOrdered pair rest
    else p :: rest

def empty : SortedSet := ⟨.empty, []⟩

instance : Inhabited SortedSet := ⟨empty⟩

def size (z : SortedSet) : Nat := z.scores.size

def isEmpty (z : SortedSet) : Bool := z.scores.isEmpty

def score? (z : SortedSet) (member : Bytes) : Option Binary64 := z.scores.get? member

/-- The members and their scores, in listing order. -/
def toList (z : SortedSet) : List (Bytes × Binary64) := z.ordered.map fun (s, m) => (m, s)

/-- Gives a member a score. Both zeros are the same score. -/
def insert (z : SortedSet) (member : Bytes) (score : Binary64) : Insertion × SortedSet :=
  let score := score.normalZero
  let scores := z.scores.insert member score
  match z.scores.get? member with
  | none => (.added, ⟨scores, insertOrdered (score, member) z.ordered⟩)
  | some old =>
    if old.place = score.place then (.unchanged, ⟨scores, z.ordered⟩)
    else
      let others := z.ordered.filter (· ≠ (old, member))
      (.updated, ⟨scores, insertOrdered (score, member) others⟩)

def remove (z : SortedSet) (member : Bytes) : Bool × SortedSet :=
  match z.scores.get? member with
  | none => (false, z)
  | some old => (true, ⟨z.scores.erase member, z.ordered.filter (· ≠ (old, member))⟩)

/-- The pairs between two ranks, both included. In reverse, ranks count from the highest score. -/
def rangeByRank (z : SortedSet) (start stop : Int) (reverse : Bool) : List (Bytes × Binary64) :=
  match Span.clamp? start stop z.size with
  | none => []
  | some span => span.slice (if reverse then z.toList.reverse else z.toList)

def rangeByScore (z : SortedSet) (min max : ScoreBound) : List (Bytes × Binary64) :=
  (z.toList.dropWhile fun p => !min.admitsFromBelow p.2).takeWhile fun p => max.admitsFromAbove p.2

def removeAll (z : SortedSet) (members : List Bytes) : SortedSet :=
  members.foldl (fun z m => (z.remove m).2) z

def removeRangeByRank (z : SortedSet) (start stop : Int) : Nat × SortedSet :=
  let range := z.rangeByRank start stop false
  (range.length, z.removeAll (range.map (·.1)))

def removeRangeByScore (z : SortedSet) (min max : ScoreBound) : Nat × SortedSet :=
  let range := z.rangeByScore min max
  (range.length, z.removeAll (range.map (·.1)))

end SortedSet
end RespStore

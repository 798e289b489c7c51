import SearchDsl.Error.Basic
import SearchDsl.TopDocs.Queue
import SearchDsl.TopDocs.SortValue

/-!
# `SearchDsl.TopDocs.Merge`: merging the top hits of several shards

Each shard lists its top hits in the order of the ranking criteria. Merging ranks the hits of all
shards and returns a page of the ranking, as if one search had run over everything. Hits that the
criteria do not tell apart rank by the position of their shard, then by their own.

A queue holds the next hit of each shard that has one left. The first hit of the queue is ranked,
and the hit after it in its shard takes its place.
-/

set_option autoImplicit false

namespace SearchDsl

/-- A hit of a shard. -/
structure Hit where
  /-- The position within the shard. -/
  doc : Nat
  score : Single
  /-- The position of the shard among those merged. -/
  shard : Nat := 0
  /-- One value per criterion. -/
  values : List SortValue := []
deriving DecidableEq

/-- The top hits of a search, in order, and the number of all hits. -/
structure TopDocs where
  /-- The number of all hits, the ranked ones among them. A shard states it as a number of 64
  bits. -/
  total : Nat
  hits : List Hit
deriving DecidableEq

namespace RankingKey

/-- How a criterion orders two sort values. Missing values keep their place when it is reversed. -/
def orderValues (reverse missingLast : Bool) (a b : SortValue) : Ordering :=
  if a.isMissing then
    if b.isMissing then .eq else if missingLast then .gt else .lt
  else if b.isMissing then
    if missingLast then .lt else .gt
  else if reverse then (a.order b).swap
  else a.order b

/-- How a criterion orders two hits, given the sort values at its position. -/
def order (key : RankingKey) (a b : Hit) (aValue bValue : SortValue) : Ordering :=
  match key with
  | score reverse =>
      let highestFirst := b.score.totalOrder a.score
      if reverse then highestFirst.swap else highestFirst
  | doc => compare a.doc b.doc
  | field reverse missingLast => orderValues reverse missingLast aValue bValue

/-- How several criteria order two hits: the first that tells them apart decides. Values that a hit
does not have are missing. -/
def orderHits (a b : Hit) : List RankingKey → List SortValue → List SortValue → Ordering
  | [], _, _ => .eq
  | key :: keys, aValues, bValues =>
      (key.order a b (aValues.headD .missing) (bValues.headD .missing)).then
        (orderHits a b keys aValues.tail bValues.tail)

end RankingKey

/-- The ranking order: the criteria, then the shard, then the position in the shard. -/
def Hit.order (keys : List RankingKey) (a b : Hit) : Ordering :=
  (RankingKey.orderHits a b keys a.values b.values).then
    ((compare a.shard b.shard).then (compare a.doc b.doc))

/-- The hits of a shard that are not ranked yet. -/
structure Cursor where
  next : Hit
  rest : List Hit

namespace Cursor

/-- The cursor over a list of hits, unless it is empty. -/
def ofList? : List Hit → Option Cursor
  | [] => none
  | hit :: rest => some ⟨hit, rest⟩

/-- Whether the next hit of one shard may be ranked before that of another. -/
def noLater (keys : List RankingKey) (a b : Cursor) : Bool :=
  (a.next.order keys b.next).isLE

end Cursor

namespace TopDocs

/-- Hits by descending score. -/
def defaultKeys : List RankingKey := [.score false]

/-- Checks that the hits have one sort value per criterion. They may have none at all when no
criterion reads them. -/
def checkValues (keys : List RankingKey) (shard : Nat) (hit : Hit) : Except Error Unit :=
  let count := hit.values.length
  if count ≠ keys.length ∧ (keys.any RankingKey.readsValues ∨ 0 < count) then
    .error (.argument (.sortValueCount hit.doc shard count keys.length))
  else .ok ()

/-- Checks all hits of all shards, the first of which has the given position. -/
def checkShards (keys : List RankingKey) : Nat → List TopDocs → Except Error Unit
  | _, [] => .ok ()
  | position, shard :: rest => do
      shard.hits.forM (checkValues keys position)
      checkShards keys (position + 1) rest

/-- The hits of a shard with its position. -/
def tagged (position : Nat) (shard : TopDocs) : List Hit :=
  shard.hits.map fun hit => { hit with shard := position }

/-- The hits of each shard with the positions of the shards, the first of which is given. -/
def taggedFrom (position : Nat) : List TopDocs → List (List Hit)
  | [] => []
  | shard :: rest => shard.tagged position :: taggedFrom (position + 1) rest

/-- The queue after its first cursor was taken out: the hits after the one it stood at come back
in. -/
def requeue (keys : List RankingKey) (others : Queue Cursor) (rest : List Hit) : Queue Cursor :=
  match Cursor.ofList? rest with
  | some cursor => others.push (Cursor.noLater keys) cursor
  | none => others

/-- Ranks hits from a queue until as many as given are ranked or none is left. The first one gets
the given rank, and those before rank `start` are left out. -/
def rankFrom (keys : List RankingKey) (start : Nat) : (count rank : Nat) → Queue Cursor → List Hit
  | 0, _, _ => []
  | count + 1, rank, queue =>
      match queue.pop? (Cursor.noLater keys) with
      | none => []
      | some (cursor, others) =>
          let later := rankFrom keys start count (rank + 1) (requeue keys others cursor.rest)
          if start ≤ rank then cursor.next :: later else later

/-- The queue that merging starts from: a cursor at the first hit of each shard that has hits. -/
def startQueue (keys : List RankingKey) (shards : List TopDocs) : Queue Cursor :=
  Queue.ofList (Cursor.noLater keys) ((taggedFrom 0 shards).filterMap Cursor.ofList?)

/-- The rank after the last one of a page, as far as 64 bits can represent it. -/
def pageEnd (start size : Nat) : Nat := min (start + size) (UInt64.size - 1)

/-- The number of hits of all shards, those beyond the top hits included. The sum is exact. A sum
that is kept in 64 bits is the same as long as this one is below `2 ^ 64`; it overflows from there
on. -/
def totalOf (shards : List TopDocs) : Nat :=
  shards.foldr (fun shard others => shard.total + others) 0

/-- The hits from rank `start` on, at most `size` of them, of all shards together. -/
def mergePage (keys : Option (List RankingKey)) (start size : Nat) (shards : List TopDocs) :
    Except Error TopDocs := do
  let keys := keys.getD defaultKeys
  checkShards keys 0 shards
  pure ⟨totalOf shards, rankFrom keys start (pageEnd start size) 0 (startQueue keys shards)⟩

/-- The first hits of all shards together. -/
def merge (keys : Option (List RankingKey)) (size : Nat) (shards : List TopDocs) :
    Except Error TopDocs :=
  mergePage keys 0 size shards

end TopDocs

end SearchDsl

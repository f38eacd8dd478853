import LevinNet.Crawl.Visit

/-
What a crawl knows of every address: whether it waits to be visited, is being visited, or was
visited. An address that is known is never queued again, and a visit that is recorded stays as it
is.
-/
namespace LevinNet

structure Frontier where
  /-- The peers that wait, by address. -/
  waiting : AddressMap Peer := .empty
  /-- The addresses that are being visited. -/
  inFlight : AddressMap Unit := .empty
  visited : AddressMap Visit := .empty

namespace Frontier

def empty : Frontier := {}

/-- Whether an address was ever queued or visited. -/
def knows (f : Frontier) (address : String) : Bool :=
  f.visited.contains address || f.inFlight.contains address || f.waiting.contains address

/-- Queue a peer unless its address is known; tells whether it was queued. -/
def enqueue (f : Frontier) (p : Peer) : Bool × Frontier :=
  if f.knows p.address then (false, f)
  else (true, { f with waiting := f.waiting.insert p.address p })

/-- Hand out the peer that waits under an address. -/
def take (f : Frontier) (address : String) : Option (Peer × Frontier) :=
  match f.waiting.get? address with
  | none => none
  | some p => some (p, { f with
      waiting := f.waiting.erase address
      inFlight := f.inFlight.insert address () })

/-- The addresses that wait. -/
def queued (f : Frontier) : List String := f.waiting.keys

/-- Hand out all peers that wait. -/
def takeAll (f : Frontier) : List Peer × Frontier :=
  f.queued.foldl
    (fun (taken, f) address =>
      match f.take address with
      | some (p, f) => (taken ++ [p], f)
      | none => (taken, f))
    ([], f)

/-- Record a visit. The first visit of an address stays. -/
def record (f : Frontier) (v : Visit) : Frontier where
  waiting := f.waiting.erase v.address
  inFlight := f.inFlight.erase v.address
  visited := if f.visited.contains v.address then f.visited else f.visited.insert v.address v

/-- Whether nothing waits and nothing is being visited. -/
def isQuiescent (f : Frontier) : Bool := f.waiting.isEmpty && f.inFlight.isEmpty

/-- The visits, taken out of the frontier. -/
def drain (f : Frontier) : AddressMap Visit × Frontier := (f.visited, { f with visited := .empty })

theorem enqueue_of_knows {f : Frontier} {p : Peer} (h : f.knows p.address = true) :
    (f.enqueue p).2 = f := by
  simp only [enqueue, h, if_true]

theorem enqueue_of_new {f : Frontier} {p : Peer} (h : f.knows p.address = false) :
    (f.enqueue p).2 = { f with waiting := f.waiting.insert p.address p } := by
  simp only [enqueue, h, if_false, Bool.false_eq_true]

theorem visited_enqueue (f : Frontier) (p : Peer) : (f.enqueue p).2.visited = f.visited := by
  rw [enqueue]
  split <;> rfl

theorem take_eq_some_iff {f f' : Frontier} {address : String} {p : Peer} :
    f.take address = some (p, f') ↔ f.waiting.get? address = some p ∧
      f' = { f with
        waiting := f.waiting.erase address
        inFlight := f.inFlight.insert address () } := by
  rw [take]
  cases f.waiting.get? address with
  | none => simp
  | some q => simp only [Option.some.injEq, Prod.mk.injEq, eq_comm]

theorem isQuiescent_iff {f : Frontier} : f.isQuiescent = true ↔
    ∀ a, f.waiting.contains a = false ∧ f.inFlight.contains a = false := by
  rw [isQuiescent, Bool.and_eq_true, AddressMap.isEmpty_iff, AddressMap.isEmpty_iff, forall_and]

/-- The visits after a visit is recorded. -/
theorem get?_visited_record (f : Frontier) (v : Visit) (a : String) :
    (f.record v).visited.get? a =
      if f.visited.contains v.address = false ∧ v.address = a then some v else f.visited.get? a := by
  rw [record]
  cases h : f.visited.contains v.address with
  | true => simp
  | false =>
    by_cases ha : v.address = a <;> simp [ha]

theorem contains_visited_record (f : Frontier) (v : Visit) (a : String) :
    (f.record v).visited.contains a = (decide (v.address = a) || f.visited.contains a) := by
  rw [record]
  cases h : f.visited.contains v.address with
  | true =>
    by_cases ha : v.address = a
    · subst ha
      simp [h]
    · simp [ha]
  | false => simp

end Frontier

end LevinNet

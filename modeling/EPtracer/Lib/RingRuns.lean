import EPtracer.Lib.RingInvariant
import Mathlib.Data.List.Induction

/-!
# What the consumer sees, and runs that compute

The first section reads the results off `Invariant`: a returned invocation has
no open record, the consumer is handed at most one record of each invocation,
each with the content it submitted, and in an order that agrees with the order
of invocations that do not overlap.

`State.run` plays a list of choices from the initial state.  A choice that is
not enabled does nothing.  Every state it computes is reachable
(`State.run_reachable`).
-/

namespace RingBuffer

variable {κ α ε : Type} {cap : Nat} {prog : κ → Prog α ε}

/-! ## Results -/

theorem Invariant.no_open {s : State κ α ε} (hi : Invariant cap prog s) {i : Nat}
    (hr : s.Returned i) (h : Nat) : s.ring.log[h]? ≠ some (i, .busy) := by
  obtain ⟨inv, hinv, hret⟩ := hr
  cases hi.stage i inv hinv with
  | fresh _ hno => exact fun hh => hno (mem_owners hh)
  | holding _ hhold => simp [hret, Prog.Holding] at hhold
  | done _ hno => exact hno h

theorem Slot.owners_filterMap : ∀ l : List (Nat × Slot α),
    ((l.filterMap Slot.record).map Prod.fst).Sublist (l.map Prod.fst)
  | [] => by simp
  | (i, .ready r) :: l => by
      simpa [List.filterMap_cons, Slot.record] using Slot.owners_filterMap l
  | (i, .busy) :: l => by
      simpa [List.filterMap_cons, Slot.record] using (Slot.owners_filterMap l).cons i
  | (i, .discarded) :: l => by
      simpa [List.filterMap_cons, Slot.record] using (Slot.owners_filterMap l).cons i

theorem Invariant.delivered_sublist {s : State κ α ε} (hi : Invariant cap prog s) :
    (s.delivered.map Prod.fst).Sublist s.ring.owners := by
  rw [hi.delivered]
  exact (Slot.owners_filterMap _).trans ((List.take_sublist _ _).map _)

theorem Invariant.delivered_nodup {s : State κ α ε} (hi : Invariant cap prog s) :
    (s.delivered.map Prod.fst).Nodup :=
  hi.nodup.sublist hi.delivered_sublist

/-- Delivery follows the order of invocations that do not overlap. -/
theorem Invariant.delivered_order {s : State κ α ε} (hi : Invariant cap prog s) :
    (s.delivered.map Prod.fst).Pairwise fun i j => j ∉ s.past i :=
  hi.order.sublist hi.delivered_sublist

/-- Where invocations do not overlap, delivery follows the order they started
in. -/
theorem Invariant.delivered_sorted {s : State κ α ε} (hi : Invariant cap prog s)
    (hseq : ∀ i < s.calls.length, ∀ j < i, j ∈ s.past i) :
    (s.delivered.map Prod.fst).Pairwise (· < ·) := by
  have hboth := hi.delivered_order.and hi.delivered_nodup
  refine hboth.imp_of_mem fun {i j} hmem _ hij => ?_
  have hlt := hi.owners_lt i (hi.delivered_sublist.subset hmem)
  by_contra hge
  exact hij.1 (hseq i hlt j (Nat.lt_of_le_of_ne (Nat.le_of_not_lt hge) (Ne.symm hij.2)))

theorem Invariant.delivered_submitted {s : State κ α ε} (hi : Invariant cap prog s) {i : Nat}
    {r : α} (hmem : (i, r) ∈ s.delivered) :
    ∃ inv h, s.calls[i]? = some inv ∧ Act.submit h r ∈ inv.log := by
  rw [hi.delivered, List.mem_filterMap] at hmem
  obtain ⟨⟨j, v⟩, hx, hrec⟩ := hmem
  cases v with
  | busy => simp [Slot.record] at hrec
  | discarded => simp [Slot.record] at hrec
  | ready r' =>
      simp only [Slot.record, Option.some.injEq, Prod.mk.injEq] at hrec
      obtain ⟨rfl, rfl⟩ := hrec
      obtain ⟨h, hh⟩ := List.getElem?_of_mem (List.mem_of_mem_take hx)
      obtain ⟨inv, hinv, hsub⟩ := hi.ready h j r' hh
      exact ⟨inv, h, hinv, hsub⟩

theorem Invariant.returned_exec {s : State κ α ε} (hi : Invariant cap prog s) {i : Nat}
    {inv : Invocation κ α ε} (h : s.calls[i]? = some inv) (hret : inv.prog = .ret) :
    (prog inv.call).Exec inv.log .ret := by
  have := hi.exec i inv h
  rwa [hret] at this

theorem Invariant.no_act_of_ret {s t : State κ α ε} (hi : Invariant cap prog s) {i : Nat}
    {a : Act α ε} {inv : Invocation κ α ε} (h : s.calls[i]? = some inv)
    (hret : prog inv.call = .ret) : ¬ Step cap prog s (.act i a) t := by
  intro hs
  have hex := hi.exec i inv h
  rw [hret] at hex
  cases hs with
  | act h' hp _ =>
      rw [h] at h'
      cases h'
      rw [(Prog.Exec.of_ret hex).2] at hp
      cases hp

/-- An action that no step of a run lets the calls in `C` make is in none of
their logs. -/
theorem ReachableBy.not_mem_log {P : State κ α ε → Label κ α ε → Prop} {C : κ → Prop}
    {a : Act α ε}
    (hP : ∀ {s t : State κ α ε} {i : Nat} {inv : Invocation κ α ε}, s.calls[i]? = some inv →
      C inv.call → P s (.act i a) → ¬ Step cap prog s (.act i a) t)
    {s : State κ α ε} (h : ReachableBy P cap prog s) :
    ∀ (i : Nat) (inv : Invocation κ α ε), s.calls[i]? = some inv → C inv.call → a ∉ inv.log := by
  induction h with
  | refl => simp [State.init]
  | tail _ hs ih =>
      obtain ⟨l, hPl, hs⟩ := hs
      intro i inv hinv hC
      cases hs with
      | enter c =>
          rw [State.getElem?_enter] at hinv
          split at hinv
          next =>
            cases hinv
            simp
          next => exact ih i inv hinv hC
      | @act j inv₀ a' p ring hinv₀ hp hd =>
          rw [State.getElem?_perform hinv₀] at hinv
          split at hinv
          next hij =>
            cases hinv
            subst hij
            simp only [List.mem_append, List.mem_singleton, not_or]
            refine ⟨ih j inv₀ hinv₀ hC, ?_⟩
            rintro rfl
            exact hP hinv₀ hC hPl (.act hinv₀ hp hd)
          next => exact ih i inv hinv hC
      | deliver => exact ih i inv hinv hC
      | skip => exact ih i inv hinv hC

/-! ## Invocations return -/

/-- An invocation that has not returned can act: a reservation fails when there
is no room for it, and nothing else waits. -/
theorem State.can_act [Nonempty α] (cap : Nat) (prog : κ → Prog α ε) {s : State κ α ε}
    {i : Nat} {inv : Invocation κ α ε} (h : s.calls[i]? = some inv) (hret : inv.prog ≠ .ret) :
    ∃ a p t, inv.prog.Step a p ∧ Step cap prog s (.act i a) t ∧
      t.calls[i]? = some { inv with prog := p, log := inv.log ++ [a] } := by
  obtain ⟨a, p, ring, hp, hd⟩ : ∃ a p ring, inv.prog.Step a p ∧ s.ring.Does cap i a ring := by
    obtain ⟨call, past, q, log⟩ := inv
    cases q with
    | ret => exact absurd rfl hret
    | reserve next =>
        obtain ⟨old⟩ := ‹Nonempty α›
        by_cases hroom : s.ring.used < cap
        · exact ⟨_, _, _, .reserve _, .reserve old hroom⟩
        · exact ⟨_, _, _, .reserve _, .full (Nat.le_of_not_lt hroom)⟩
    | submit h r p => exact ⟨_, _, _, .submit, .submit⟩
    | discard h p => exact ⟨_, _, _, .discard, .discard⟩
    | emit e p => exact ⟨_, _, _, .emit, .emit⟩
  refine ⟨a, p, s.perform i inv a p ring, hp, .act h hp hd, ?_⟩
  rw [State.getElem?_perform h, if_pos rfl]

/-- From every state an invocation can be run to its return, with no step of
another invocation and no poll. -/
theorem State.can_return [Nonempty α] (cap : Nat) (prog : κ → Prog α ε) {s : State κ α ε}
    {i : Nat} {inv : Invocation κ α ε} (h : s.calls[i]? = some inv) :
    ∃ t, Relation.ReflTransGen (fun s t => ∃ a, Step cap prog s (.act i a) t) s t ∧
      t.Returned i := by
  generalize hp : inv.prog = p at h
  induction p using Prog.step_induction generalizing s inv with
  | ih p ih =>
      by_cases hret : p = .ret
      · exact ⟨s, .refl, inv, h, hp.trans hret⟩
      · subst hp
        obtain ⟨a, q, s', hq, hs, h'⟩ := State.can_act cap prog h hret
        obtain ⟨t, ht, hdone⟩ := ih a q hq h' rfl
        exact ⟨t, .head ⟨a, hs⟩ ht, hdone⟩

/-! ## Computed runs -/

/-- What to do next. -/
inductive Choice (κ α : Type) where
  | enter (c : κ)
  /-- Invocation `i` acts.  A record it reserves holds `old`. -/
  | resume (i : Nat) (old : α)
  | poll

/-- The state after a choice, or the same state when it is not enabled. -/
def State.choose (cap : Nat) (prog : κ → Prog α ε) (s : State κ α ε) :
    Choice κ α → State κ α ε
  | .enter c => s.enter prog c
  | .resume i old =>
      match s.calls[i]? with
      | none => s
      | some inv =>
          match inv.prog with
          | .ret => s
          | .reserve next =>
              if s.ring.used < cap then
                let got := some (s.ring.log.length, old)
                s.perform i inv (.reserve got) (next got) (s.ring.push i)
              else s.perform i inv (.reserve none) (next none) s.ring
          | .submit h r p => s.perform i inv (.submit h r) p (s.ring.commit h (.ready r))
          | .discard h p => s.perform i inv (.discard h) p (s.ring.commit h .discarded)
          | .emit e p => s.perform i inv (.emit e) p s.ring
  | .poll =>
      match s.ring.log[s.ring.head]? with
      | some (i, .ready r) =>
          { s with ring := s.ring.advance, delivered := s.delivered ++ [(i, r)] }
      | some (_, .discarded) => { s with ring := s.ring.advance }
      | _ => s

theorem State.choose_step (cap : Nat) (prog : κ → Prog α ε) (s : State κ α ε) (c : Choice κ α) :
    s.choose cap prog c = s ∨ ∃ l, Step cap prog s l (s.choose cap prog c) := by
  cases c with
  | enter c => exact .inr ⟨_, .enter c⟩
  | resume i old =>
      rcases hinv : s.calls[i]? with _ | inv
      · exact .inl (by simp [State.choose, hinv])
      · rcases hp : inv.prog with _ | next | ⟨h, r, p⟩ | ⟨h, p⟩ | ⟨e, p⟩
        · exact .inl (by simp [State.choose, hinv, hp])
        · by_cases hroom : s.ring.used < cap
          · simp only [State.choose, hinv, hp, hroom, if_true]
            exact .inr ⟨_, .act hinv (by rw [hp]; exact .reserve _) (.reserve old hroom)⟩
          · simp only [State.choose, hinv, hp, hroom, if_false]
            exact .inr ⟨_, .act hinv (by rw [hp]; exact .reserve _) (.full (by omega))⟩
        · simp only [State.choose, hinv, hp]
          exact .inr ⟨_, .act hinv (by rw [hp]; exact .submit) .submit⟩
        · simp only [State.choose, hinv, hp]
          exact .inr ⟨_, .act hinv (by rw [hp]; exact .discard) .discard⟩
        · simp only [State.choose, hinv, hp]
          exact .inr ⟨_, .act hinv (by rw [hp]; exact .emit) .emit⟩
  | poll =>
      rcases hh : s.ring.log[s.ring.head]? with _ | ⟨i, _ | r | _⟩
      · exact .inl (by simp [State.choose, hh])
      · exact .inl (by simp [State.choose, hh])
      · simp only [State.choose, hh]
        exact .inr ⟨_, .deliver hh⟩
      · simp only [State.choose, hh]
        exact .inr ⟨_, .skip hh⟩

/-- The state after a list of choices. -/
def State.run (cap : Nat) (prog : κ → Prog α ε) (cs : List (Choice κ α)) : State κ α ε :=
  cs.foldl (State.choose cap prog) .init

theorem State.run_reachable (cs : List (Choice κ α)) :
    Reachable cap prog (State.run cap prog cs) := by
  induction cs using List.reverseRecOn with
  | nil => exact .refl
  | append_singleton cs c ih =>
      rw [State.run, List.foldl_append]
      rcases State.choose_step cap prog (State.run cap prog cs) c with
        hsame | ⟨l, hs⟩
      · simp only [List.foldl_cons, List.foldl_nil]
        rw [← State.run, hsame]
        exact ih
      · exact ih.tail ⟨l, trivial, hs⟩

end RingBuffer

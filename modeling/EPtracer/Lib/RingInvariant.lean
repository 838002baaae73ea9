import EPtracer.Lib.Ring

/-!
# What holds in every run of one-shot producers

`Invariant` collects the facts that every step preserves.  Three of them carry
the others.

* `stage`: each invocation is before its reservation, has one open record, or
  is done and has none.
* `passed`: the consumer has passed no open record, so a commit never reaches
  behind it.
* `past`: the invocations an invocation lists as earlier have returned, so they
  reserve no more.

`act_cases` says what one action of a one-shot program does to the buffer.  The
preservation lemma of an action splits on it and on nothing else.
-/

namespace RingBuffer

variable {κ α ε : Type} {cap : Nat} {prog : κ → Prog α ε}

/-- Where invocation `i` is, with `p` left of its program. -/
inductive Stage (ring : Ring α) (i : Nat) (p : Prog α ε) : Prop where
  | fresh : p.OneShot → i ∉ ring.owners → Stage ring i p
  /-- It has to commit record `h`. -/
  | holding (h : Nat) : p.Holding h → ring.log[h]? = some (i, Slot.busy) → Stage ring i p
  /-- Its record, if it has one, is committed. -/
  | done : p.Quiet → (∀ h : Nat, ring.log[h]? ≠ some (i, Slot.busy)) → Stage ring i p

/-- The facts about a run that every step preserves. -/
structure Invariant (cap : Nat) (prog : κ → Prog α ε) (s : State κ α ε) : Prop where
  /-- Each log is an execution of the program of its call. -/
  exec : ∀ (i : Nat) (inv : Invocation κ α ε), s.calls[i]? = some inv →
    (prog inv.call).Exec inv.log inv.prog
  /-- Each invocation is in one of the three stages. -/
  stage : ∀ (i : Nat) (inv : Invocation κ α ε), s.calls[i]? = some inv → Stage s.ring i inv.prog
  /-- An invocation reserves one record at most. -/
  nodup : s.ring.owners.Nodup
  /-- Every record belongs to an invocation. -/
  owners_lt : ∀ i ∈ s.ring.owners, i < s.calls.length
  /-- The consumer passes only reserved records. -/
  head_le : s.ring.head ≤ s.ring.log.length
  /-- The consumer passes no open record. -/
  passed : ∀ h < s.ring.head, ∀ i, s.ring.log[h]? ≠ some (i, Slot.busy)
  /-- The buffer never holds more than its capacity. -/
  room : s.ring.used ≤ cap
  /-- The consumer was handed the submitted records it passed, in their order. -/
  delivered : s.delivered = (s.ring.log.take s.ring.head).filterMap Slot.record
  /-- A submission is in the buffer as it was made. -/
  submitted : ∀ (i : Nat) (inv : Invocation κ α ε) (h : Nat) (r : α),
    s.calls[i]? = some inv → Act.submit h r ∈ inv.log → s.ring.log[h]? = some (i, .ready r)
  /-- A submitted record was submitted by its owner. -/
  ready : ∀ (h i : Nat) (r : α), s.ring.log[h]? = some (i, .ready r) →
    ∃ inv : Invocation κ α ε, s.calls[i]? = some inv ∧ Act.submit h r ∈ inv.log
  /-- What an invocation lists as earlier has returned. -/
  past : ∀ i, ∀ j ∈ s.past i, s.Returned j
  /-- Reservations follow the order of invocations that do not overlap. -/
  order : s.ring.owners.Pairwise fun i j => j ∉ s.past i
  effects : ∀ (i : Nat) (e : ε), (i, e) ∈ s.effects ↔
    ∃ inv : Invocation κ α ε, s.calls[i]? = some inv ∧ Act.emit e ∈ inv.log

theorem Invariant.init : Invariant cap prog (State.init : State κ α ε) := by
  constructor <;> simp [State.init, Ring.owners, Ring.used, State.past]

/-! ## One action -/

/-- What an action of a one-shot program does.  It leaves the buffer alone,
reserves the next record, or commits the one open record of its invocation. -/
theorem act_cases {ring ring' : Ring α} {i : Nat} {p q : Prog α ε} {a : Act α ε}
    (hst : Stage ring i p) (hp : p.Step a q) (hd : ring.Does cap i a ring') :
    (ring' = ring ∧ Stage ring i q ∧ ∀ h r, a ≠ .submit h r) ∨
    (i ∉ ring.owners ∧ ring.used < cap ∧ ring' = ring.push i ∧ q.Holding ring.log.length ∧
      ∀ h r, a ≠ .submit h r) ∨
    (∃ h v, ring.log[h]? = some (i, .busy) ∧ ring' = ring.commit h v ∧ q.Quiet ∧
      ((∃ r, v = .ready r ∧ a = .submit h r) ∨ (v = .discarded ∧ ∀ h r, a ≠ .submit h r))) := by
  cases hst with
  | fresh hone hno =>
      rcases hone.act hp with ⟨e, rfl, hq⟩ | ⟨rfl, hq⟩ | ⟨h, old, rfl, hq⟩
      · cases hd
        exact .inl ⟨rfl, .fresh hq hno, by simp⟩
      · cases hd
        exact .inl ⟨rfl, .done hq fun h hh => hno (mem_owners hh), by simp⟩
      · cases hd with
        | reserve _ hroom => exact .inr (.inl ⟨hno, hroom, rfl, hq, by simp⟩)
  | holding h hhold hbusy =>
      rcases hhold.act hp with ⟨e, rfl, hq⟩ | ⟨r, rfl, hq⟩ | ⟨rfl, hq⟩
      · cases hd
        exact .inl ⟨rfl, .holding h hq hbusy, by simp⟩
      · cases hd
        exact .inr (.inr ⟨h, .ready r, hbusy, rfl, hq, .inl ⟨r, rfl, rfl⟩⟩)
      · cases hd
        exact .inr (.inr ⟨h, .discarded, hbusy, rfl, hq, .inr ⟨rfl, by simp⟩⟩)
  | done hquiet hno =>
      obtain ⟨⟨e, rfl⟩, hq⟩ := hquiet.act hp
      cases hd
      exact .inl ⟨rfl, .done hq hno, by simp⟩

theorem Stage.push {ring : Ring α} {i j : Nat} {p : Prog α ε} (hst : Stage ring j p)
    (hij : i ≠ j) : Stage (ring.push i) j p := by
  cases hst with
  | fresh hone hno => exact .fresh hone (by simp [hno, Ne.symm hij])
  | holding h hhold hbusy =>
      refine .holding h hhold ?_
      have hlt := (List.getElem?_eq_some_iff.mp hbusy).1
      rw [Ring.getElem?_push, if_neg (by omega), hbusy]
  | done hquiet hno =>
      refine .done hquiet fun h => ?_
      rw [Ring.getElem?_push]
      split
      · simp [hij]
      · exact hno h

theorem Stage.commit {ring : Ring α} {i j h₀ : Nat} {p : Prog α ε} {v w : Slot α}
    (hst : Stage ring j p) (hh : ring.log[h₀]? = some (i, v)) (hij : i ≠ j) :
    Stage (ring.commit h₀ w) j p := by
  cases hst with
  | fresh hone hno => exact .fresh hone (by simpa using hno)
  | holding h hhold hbusy =>
      refine .holding h hhold ?_
      have hne : h₀ ≠ h := by
        rintro rfl
        rw [hh] at hbusy
        simp [hij] at hbusy
      rw [Ring.getElem?_commit hh, if_neg hne, hbusy]
  | done hquiet hno =>
      refine .done hquiet fun h => ?_
      rw [Ring.getElem?_commit hh]
      split
      · simp [hij]
      · exact hno h

theorem Ring.take_commit {ring : Ring α} {h : Nat} {v : Slot α} (hh : ring.head ≤ h) :
    (ring.commit h v).log.take ring.head = ring.log.take ring.head := by
  apply List.ext_getElem?
  intro j
  simp only [Ring.commit, List.getElem?_take, List.getElem?_modify]
  by_cases hj : j < ring.head
  · simp [hj, show h ≠ j by omega]
  · simp [hj]

/-! ## Preservation -/

theorem State.getElem?_enter (s : State κ α ε) (c : κ) (i : Nat) :
    (s.enter prog c).calls[i]? =
      if i = s.calls.length then some ⟨c, s.returnedIds, prog c, []⟩ else s.calls[i]? := by
  rcases Nat.lt_trichotomy i s.calls.length with hlt | rfl | hgt
  · rw [if_neg (by omega)]
    exact List.getElem?_append_left hlt
  · simp [State.enter]
  · have hlen : (s.enter prog c).calls.length = s.calls.length + 1 := by simp [State.enter]
    rw [if_neg (by omega), List.getElem?_eq_none (by omega), List.getElem?_eq_none (by omega)]

theorem State.getElem?_enter_of_some {s : State κ α ε} {i : Nat} {inv : Invocation κ α ε}
    (h : s.calls[i]? = some inv) (c : κ) : (s.enter prog c).calls[i]? = some inv := by
  have hlt := (List.getElem?_eq_some_iff.mp h).1
  rw [State.getElem?_enter, if_neg (by omega), h]

theorem State.past_enter (s : State κ α ε) (c : κ) (i : Nat) :
    (s.enter prog c).past i = if i = s.calls.length then s.returnedIds else s.past i := by
  by_cases hi : i = s.calls.length
  · simp only [State.past, State.getElem?_enter, if_pos hi]
  · simp only [State.past, State.getElem?_enter, if_neg hi]

theorem Invariant.enter {s : State κ α ε} (hprog : ∀ c, (prog c).OneShot)
    (hi : Invariant cap prog s) (c : κ) : Invariant cap prog (s.enter prog c) where
  exec i inv h := by
    rw [State.getElem?_enter] at h
    split at h
    · cases h
      exact .refl
    · exact hi.exec i inv h
  stage i inv h := by
    rw [State.getElem?_enter] at h
    split at h
    next hnew =>
      cases h
      exact .fresh (hprog c) fun hmem => absurd (hi.owners_lt i hmem) (by omega)
    · exact hi.stage i inv h
  nodup := hi.nodup
  owners_lt i hmem := by
    have := hi.owners_lt i hmem
    simp only [State.enter, List.length_append]
    omega
  head_le := hi.head_le
  passed := hi.passed
  room := hi.room
  delivered := hi.delivered
  submitted i inv h r hinv hmem := by
    rw [State.getElem?_enter] at hinv
    split at hinv
    · cases hinv
      simp at hmem
    · exact hi.submitted i inv h r hinv hmem
  ready h i r hh := by
    obtain ⟨inv, hinv, hmem⟩ := hi.ready h i r hh
    exact ⟨inv, State.getElem?_enter_of_some hinv c, hmem⟩
  past i j hj := by
    have hret : s.Returned j := by
      rw [State.past_enter] at hj
      split at hj
      · exact State.mem_returnedIds.mp hj
      · exact hi.past i j hj
    obtain ⟨inv, hinv, hret⟩ := hret
    exact ⟨inv, State.getElem?_enter_of_some hinv c, hret⟩
  order := by
    refine hi.order.imp_of_mem fun {i j} hi' _ hij => ?_
    have := hi.owners_lt i hi'
    rwa [State.past_enter, if_neg (by omega)]
  effects i e := by
    refine (hi.effects i e).trans ⟨?_, ?_⟩
    · rintro ⟨inv, hinv, hmem⟩
      exact ⟨inv, State.getElem?_enter_of_some hinv c, hmem⟩
    · rintro ⟨inv, hinv, hmem⟩
      rw [State.getElem?_enter] at hinv
      split at hinv
      · cases hinv
        simp at hmem
      · exact ⟨inv, hinv, hmem⟩

theorem Invariant.poll_advance {s : State κ α ε} (hi : Invariant cap prog s)
    {i : Nat} {v : Slot α} (hh : s.ring.log[s.ring.head]? = some (i, v))
    (hv : v ≠ .busy) :
    Invariant cap prog { s with
      ring := s.ring.advance
      delivered := s.delivered ++ (Slot.record (i, v)).toList } where
  exec := hi.exec
  stage j inv hj := by
    cases hi.stage j inv hj with
    | fresh hone hno => exact .fresh hone hno
    | holding h hhold hbusy => exact .holding h hhold hbusy
    | done hquiet hno => exact .done hquiet hno
  nodup := hi.nodup
  owners_lt := hi.owners_lt
  head_le := (List.getElem?_eq_some_iff.mp hh).1
  passed h hlt j := by
    rcases Nat.lt_succ_iff_lt_or_eq.mp hlt with hlt | rfl
    · exact hi.passed h hlt j
    · change s.ring.log[s.ring.head]? ≠ _
      rw [hh]
      simp [hv]
  room := by
    have := hi.room
    simp only [Ring.used, Ring.advance] at this ⊢
    omega
  delivered := by
    change _ = (s.ring.log.take (s.ring.head + 1)).filterMap Slot.record
    rw [List.take_add_one, hh, List.filterMap_append, ← hi.delivered]
    cases hrec : Slot.record (i, v) <;> simp [hrec]
  submitted := hi.submitted
  ready := hi.ready
  past := hi.past
  order := hi.order
  effects := hi.effects

/-! ### An action -/

theorem State.getElem?_perform {s : State κ α ε} {i : Nat} {inv : Invocation κ α ε}
    (h : s.calls[i]? = some inv) (a : Act α ε) (p : Prog α ε) (ring : Ring α) (j : Nat) :
    (s.perform i inv a p ring).calls[j]? =
      if i = j then some { inv with prog := p, log := inv.log ++ [a] } else s.calls[j]? :=
  getElem?_set_of_some h _ j

theorem State.past_perform {s : State κ α ε} {i : Nat} {inv : Invocation κ α ε}
    (h : s.calls[i]? = some inv) (a : Act α ε) (p : Prog α ε) (ring : Ring α) (j : Nat) :
    (s.perform i inv a p ring).past j = s.past j := by
  by_cases hij : i = j
  · subst hij
    simp only [State.past, State.getElem?_perform h, if_pos, h]
  · simp only [State.past, State.getElem?_perform h, if_neg hij]

theorem State.not_returned_of_step {s : State κ α ε} {i : Nat} {inv : Invocation κ α ε}
    {a : Act α ε} {p : Prog α ε} (h : s.calls[i]? = some inv) (hp : inv.prog.Step a p) :
    ¬ s.Returned i := by
  rintro ⟨inv', hinv', hret⟩
  rw [h] at hinv'
  cases hinv'
  rw [hret] at hp
  cases hp

theorem State.Returned.perform {s : State κ α ε} {i j : Nat} {inv : Invocation κ α ε}
    {a : Act α ε} {p : Prog α ε} (h : s.calls[i]? = some inv) (hp : inv.prog.Step a p)
    (hr : s.Returned j) (ring : Ring α) : (s.perform i inv a p ring).Returned j := by
  have hij : i ≠ j := by
    rintro rfl
    exact State.not_returned_of_step h hp hr
  obtain ⟨inv', hinv', hret⟩ := hr
  exact ⟨inv', by rw [State.getElem?_perform h, if_neg hij, hinv'], hret⟩

/-- What an action of an invocation must do to the buffer for the invariant to
survive it.  `act_cases` provides it. -/
structure Keeps (cap : Nat) (s : State κ α ε) (i : Nat) (inv : Invocation κ α ε)
    (a : Act α ε) (p : Prog α ε) (ring : Ring α) : Prop where
  stage : ∀ (j : Nat) (inv' : Invocation κ α ε), s.calls[j]? = some inv' →
    Stage ring j (if i = j then p else inv'.prog)
  nodup : ring.owners.Nodup
  owners : ring.owners = s.ring.owners ∨ ring.owners = s.ring.owners ++ [i]
  head : ring.head = s.ring.head
  head_le : ring.head ≤ ring.log.length
  taken : ring.log.take ring.head = s.ring.log.take s.ring.head
  room : ring.used ≤ cap
  stays : ∀ (h j : Nat) (r : α), s.ring.log[h]? = some (j, Slot.ready r) →
    ring.log[h]? = some (j, Slot.ready r)
  submits : ∀ (h : Nat) (r : α), a = .submit h r → ring.log[h]? = some (i, Slot.ready r)
  ready : ∀ (h j : Nat) (r : α), ring.log[h]? = some (j, Slot.ready r) →
    s.ring.log[h]? = some (j, Slot.ready r) ∨ (j = i ∧ a = .submit h r)

theorem Invariant.keeps {s : State κ α ε} (hi : Invariant cap prog s) {i : Nat}
    {inv : Invocation κ α ε} {a : Act α ε} {p : Prog α ε} {ring : Ring α}
    (h : s.calls[i]? = some inv) (hp : inv.prog.Step a p) (hd : s.ring.Does cap i a ring) :
    Keeps cap s i inv a p ring := by
  rcases act_cases (hi.stage i inv h) hp hd with
    ⟨rfl, hst, hsub⟩ | ⟨hno, hroom, rfl, hq, hsub⟩ | ⟨h₀, v, hbusy, rfl, hq, hv⟩
  · -- the buffer is left alone
    refine ⟨?_, hi.nodup, .inl rfl, rfl, hi.head_le, rfl, hi.room, fun _ _ _ hh => hh,
      fun h r ha => absurd ha (hsub h r), fun _ _ _ hh => .inl hh⟩
    intro j inv' hj
    by_cases hij : i = j
    · subst hij
      simpa using hst
    · simpa [hij] using hi.stage j inv' hj
  · -- a record is reserved
    have hlen : (s.ring.push i).log.length = s.ring.log.length + 1 := by simp [Ring.push]
    have hhead := hi.head_le
    have hold : ∀ h < s.ring.log.length, (s.ring.push i).log[h]? = s.ring.log[h]? := by
      intro h hlt
      rw [Ring.getElem?_push, if_neg (by omega)]
    refine ⟨?_, ?_, .inr (by simp), rfl, ?_, ?_, ?_, ?_, fun h r ha => absurd ha (hsub h r), ?_⟩
    · intro j inv' hj
      by_cases hij : i = j
      · subst hij
        simp only [if_true]
        exact .holding _ hq (by rw [Ring.getElem?_push, if_pos rfl])
      · simpa [hij] using (hi.stage j inv' hj).push hij
    · rw [Ring.owners_push, List.nodup_append]
      refine ⟨hi.nodup, by simp, fun j hj k hk => ?_⟩
      rw [List.mem_singleton.mp hk]
      exact fun hji => hno (hji ▸ hj)
    · change s.ring.head ≤ _
      omega
    · exact List.take_append_of_le_length hhead
    · simp only [Ring.used, hlen] at hroom ⊢
      change _ - s.ring.head ≤ _
      omega
    · intro h j r hh
      rw [hold h (List.getElem?_eq_some_iff.mp hh).1, hh]
    · intro h j r hh
      rw [Ring.getElem?_push] at hh
      split at hh
      · simp at hh
      · exact .inl hh
  · -- the open record is committed
    have hlog := Ring.getElem?_commit (w := v) hbusy
    have hhead : s.ring.head ≤ h₀ := by
      by_contra hlt
      exact hi.passed h₀ (by omega) i hbusy
    have hlen : (s.ring.commit h₀ v).log.length = s.ring.log.length := by simp [Ring.commit]
    refine ⟨?_, by simpa using hi.nodup, .inl (by simp), rfl, ?_, Ring.take_commit hhead, ?_,
      ?_, ?_, ?_⟩
    · intro j inv' hj
      by_cases hij : i = j
      · subst hij
        simp only [if_true]
        refine .done hq fun h hh => ?_
        rw [hlog] at hh
        split at hh
        · rcases hv with ⟨r, rfl, -⟩ | ⟨rfl, -⟩ <;> simp at hh
        next hne => exact hne (Ring.eq_of_owner hi.nodup hbusy hh)
      · simpa [hij] using (hi.stage j inv' hj).commit hbusy hij
    · rw [hlen]
      exact hi.head_le
    · have := hi.room
      simp only [Ring.used, hlen] at this ⊢
      exact this
    · intro h j r hh
      have hne : h₀ ≠ h := by
        rintro rfl
        rw [hbusy] at hh
        simp at hh
      rw [hlog, if_neg hne, hh]
    · intro h r ha
      rcases hv with ⟨r', rfl, rfl⟩ | ⟨-, hno⟩
      · cases ha
        rw [hlog, if_pos rfl]
      · exact absurd ha (hno h r)
    · intro h j r hh
      rw [hlog] at hh
      split at hh
      next heq =>
        subst heq
        rcases hv with ⟨r', rfl, rfl⟩ | ⟨rfl, -⟩
        · simp only [Option.some.injEq, Prod.mk.injEq, Slot.ready.injEq] at hh
          obtain ⟨rfl, rfl⟩ := hh
          exact .inr ⟨rfl, rfl⟩
        · simp at hh
      · exact .inl hh

theorem Invariant.act {s : State κ α ε} (hi : Invariant cap prog s) {i : Nat}
    {inv : Invocation κ α ε} {a : Act α ε} {p : Prog α ε} {ring : Ring α}
    (h : s.calls[i]? = some inv) (hp : inv.prog.Step a p) (hd : s.ring.Does cap i a ring) :
    Invariant cap prog (s.perform i inv a p ring) := by
  have hk := hi.keeps h hp hd
  have hlook := State.getElem?_perform h a p ring
  have hlen : (s.perform i inv a p ring).calls.length = s.calls.length := by
    simp [State.perform]
  refine
    { exec := ?_, stage := ?_, nodup := hk.nodup, owners_lt := ?_, head_le := hk.head_le,
      passed := ?_, room := hk.room, delivered := ?_, submitted := ?_, ready := ?_, past := ?_,
      order := ?_, effects := ?_ }
  · intro j inv' hj
    rw [hlook] at hj
    split at hj
    next hij =>
      subst hij
      cases hj
      exact (hi.exec i inv h).snoc hp
    · exact hi.exec j inv' hj
  · intro j inv' hj
    change Stage ring j inv'.prog
    rw [hlook] at hj
    split at hj
    next hij =>
      subst hij
      cases hj
      simpa using hk.stage i inv h
    next hij => simpa [hij] using hk.stage j inv' hj
  · intro j hj
    rw [hlen]
    change j ∈ ring.owners at hj
    rcases hk.owners with ho | ho
    · exact hi.owners_lt j (ho ▸ hj)
    · rw [ho] at hj
      rcases List.mem_append.mp hj with hj | hj
      · exact hi.owners_lt j hj
      · rw [List.mem_singleton.mp hj]
        exact (List.getElem?_eq_some_iff.mp h).1
  · intro h' hlt j hh
    change h' < ring.head at hlt
    change ring.log[h']? = _ at hh
    have htake : (ring.log.take ring.head)[h']? = (s.ring.log.take s.ring.head)[h']? := by
      rw [hk.taken]
    rw [List.getElem?_take_of_lt hlt, List.getElem?_take_of_lt (hk.head ▸ hlt)] at htake
    exact hi.passed h' (hk.head ▸ hlt) j (htake ▸ hh)
  · change s.delivered = (ring.log.take ring.head).filterMap Slot.record
    rw [hk.taken]
    exact hi.delivered
  · intro j inv' h' r hj hmem
    rw [hlook] at hj
    split at hj
    next hij =>
      subst hij
      cases hj
      rcases List.mem_append.mp hmem with hmem | hmem
      · exact hk.stays h' i r (hi.submitted i inv h' r h hmem)
      · exact hk.submits h' r (List.mem_singleton.mp hmem).symm
    · exact hk.stays h' j r (hi.submitted j inv' h' r hj hmem)
  · intro h' j r hh
    rcases hk.ready h' j r hh with hold | ⟨rfl, ha⟩
    · obtain ⟨inv', hinv', hmem⟩ := hi.ready h' j r hold
      by_cases hij : i = j
      · subst hij
        rw [h] at hinv'
        cases hinv'
        exact ⟨_, by rw [hlook, if_pos rfl], List.mem_append_left _ hmem⟩
      · exact ⟨inv', by rw [hlook, if_neg hij, hinv'], hmem⟩
    · exact ⟨_, by rw [hlook, if_pos rfl], List.mem_append_right _ (List.mem_singleton.mpr ha.symm)⟩
  · intro j k hk'
    rw [State.past_perform h] at hk'
    exact (hi.past j k hk').perform h hp ring
  · have hpast : ∀ j k, k ∉ s.past j → k ∉ (s.perform i inv a p ring).past j := by
      intro j k hjk
      rwa [State.past_perform h]
    change ring.owners.Pairwise _
    rcases hk.owners with ho | ho
    · rw [ho]
      exact hi.order.imp fun {j k} hjk => hpast j k hjk
    · rw [ho, List.pairwise_append]
      refine ⟨hi.order.imp fun {j k} hjk => hpast j k hjk, by simp, fun j _ k hk' => ?_⟩
      rw [List.mem_singleton.mp hk']
      exact hpast j i fun hmem => State.not_returned_of_step h hp (hi.past j i hmem)
  · intro j e
    change (j, e) ∈ s.effects ++ a.effect i ↔ _
    rw [List.mem_append, hi.effects]
    by_cases hij : i = j
    · subst hij
      simp only [hlook, if_true, Option.some.injEq, h, exists_eq_left', List.mem_append,
        List.mem_singleton]
      cases a <;> simp [Act.effect]
    · have hnot : (j, e) ∉ a.effect i := by
        cases a <;> simp [Act.effect, Ne.symm hij]
      simp only [hnot, or_false, hlook, if_neg hij]

/-! ## Runs -/

theorem Invariant.step (hprog : ∀ c, (prog c).OneShot) {s t : State κ α ε} {l : Label κ α ε}
    (hi : Invariant cap prog s) (hs : Step cap prog s l t) : Invariant cap prog t := by
  cases hs with
  | enter c => exact hi.enter hprog c
  | act h hp hd => exact hi.act h hp hd
  | deliver hh => exact hi.poll_advance hh (by simp)
  | skip hh => simpa [Slot.record] using hi.poll_advance hh (by simp)

theorem Reachable.invariant (hprog : ∀ c, (prog c).OneShot) {s : State κ α ε}
    (h : Reachable cap prog s) : Invariant cap prog s := by
  induction h with
  | refl => exact .init
  | tail _ hs ih =>
      obtain ⟨l, -, hs⟩ := hs
      exact ih.step hprog hs

end RingBuffer

import EPtracer.Lib.RingRuns
import Mathlib.Data.List.Perm.Subperm
import Mathlib.Data.List.Nodup

/-!
# Accounts of a run

Two accounts of a ring buffer with one-shot producers.

The first is of what happens while nobody polls.  An effect that each
invocation has at most once, and only with a record of its own, happens at most
once for each record ever reserved.  The buffer bounds these by its capacity
and the records that were taken out (`Reachable.length_effects_le`).

The second is of what happens when the producers are done.  From a state in
which every invocation has returned, polls alone take out every record, and then
the consumer has all that was submitted (`Reachable.drain`).
-/

namespace RingBuffer

variable {κ α ε : Type} {cap : Nat} {prog : κ → Prog α ε}

/-! ## Effects and records -/

/-- The effects of a run that are in `P`, each with its invocation. -/
def State.effectsIn (P : ε → Bool) (s : State κ α ε) : List (Nat × ε) :=
  s.effects.filter fun x => P x.2

/-- A program has at most one effect in `P`, and only after it submitted. -/
structure Prog.OnceSubmitted (P : ε → Bool) (p : Prog α ε) : Prop where
  /-- It does nothing more afterwards. -/
  last : ∀ l q e, p.Exec l q → Act.emit e ∈ l → P e = true → q = .ret
  submits : ∀ l q e, p.Exec l q → Act.emit e ∈ l → P e = true → ∃ h r, Act.submit h r ∈ l

/-- A program that reports and then, at its end, has such an effect. -/
theorem Prog.produce_onceSubmitted {P : ε → Bool} (fill : α → Option α) {next : Prog α ε}
    (hlast : ∀ l q e, next.Exec l q → Act.emit e ∈ l → P e = true → q = .ret) :
    (Prog.produce fill next).OnceSubmitted P := by
  have hafter : ∀ l q e, (Prog.produce fill next).Exec l q → Act.emit e ∈ l →
      ∃ h r l', Act.submit h r ∈ l ∧ next.Exec l' q ∧ Act.emit e ∈ l' := by
    intro l q e he hmem
    rcases Prog.produce_exec he with ⟨rfl, -⟩ | ⟨rfl, -⟩ | ⟨h, old, hcase⟩
    · simp at hmem
    · simp at hmem
    · rcases hcase with ⟨rfl, -⟩ | ⟨-, rfl, -⟩ | ⟨r, l', -, rfl, he'⟩
      · simp at hmem
      · simp at hmem
      · exact ⟨h, r, l', by simp, he', by simpa using hmem⟩
  constructor
  · intro l q e he hmem hP
    obtain ⟨-, -, l', -, he', hmem'⟩ := hafter l q e he hmem
    exact hlast l' q e he' hmem' hP
  · intro l q e he hmem hP
    obtain ⟨h, r, -, hsub, -, -⟩ := hafter l q e he hmem
    exact ⟨h, r, hsub⟩

/-- A program with other effects only. -/
theorem Prog.onceSubmitted_of_none {P : ε → Bool} {p : Prog α ε}
    (h : ∀ l q e, p.Exec l q → Act.emit e ∈ l → P e = false) : p.OnceSubmitted P where
  last l q e he hmem hP := absurd (h l q e he hmem) (by simp [hP])
  submits l q e he hmem hP := absurd (h l q e he hmem) (by simp [hP])

theorem State.mem_effectsIn {P : ε → Bool} {s : State κ α ε} {i : Nat}
    (h : i ∈ (s.effectsIn P).map Prod.fst) : ∃ e, (i, e) ∈ s.effects ∧ P e = true := by
  obtain ⟨⟨j, e⟩, hmem, rfl⟩ := List.mem_map.mp h
  exact ⟨e, List.mem_filter.mp hmem⟩

/-- The step lemma: an effect in `P` is the first one of its invocation. -/
theorem Step.effectsIn_nodup {P : ε → Bool} (honce : ∀ c, (prog c).OnceSubmitted P)
    {s t : State κ α ε} {l : Label κ α ε} (hi : Invariant cap prog s) (hs : Step cap prog s l t)
    (h : ((s.effectsIn P).map Prod.fst).Nodup) : ((t.effectsIn P).map Prod.fst).Nodup := by
  cases hs with
  | enter c => exact h
  | deliver => exact h
  | skip => exact h
  | @act i inv a p ring hinv hp hd =>
      cases a with
      | reserve got | submit k r | discard k =>
          simpa [State.effectsIn, State.perform, Act.effect] using h
      | emit e =>
          cases hP : P e with
          | false => simpa [State.effectsIn, State.perform, Act.effect, hP] using h
          | true =>
              have hnew : i ∉ (s.effectsIn P).map Prod.fst := by
                intro hmem
                obtain ⟨e', heff, hP'⟩ := State.mem_effectsIn hmem
                obtain ⟨inv', hinv', hlog⟩ := (hi.effects i e').mp heff
                rw [hinv] at hinv'
                cases hinv'
                rw [(honce inv.call).last _ _ _ (hi.exec i inv hinv) hlog hP'] at hp
                cases hp
              simp only [State.effectsIn, State.perform, Act.effect, List.filter_append,
                List.map_append] at h hnew ⊢
              refine List.Nodup.append h (by simp [hP]) ?_
              simpa [hP, List.disjoint_singleton] using hnew

theorem Reachable.effectsIn_nodup {P : ε → Bool} (hprog : ∀ c, (prog c).OneShot)
    (honce : ∀ c, (prog c).OnceSubmitted P) {s : State κ α ε} (h : Reachable cap prog s) :
    ((s.effectsIn P).map Prod.fst).Nodup := by
  induction h with
  | refl => simp [State.effectsIn, State.init]
  | tail hreach hs ih =>
      obtain ⟨l, -, hs⟩ := hs
      exact hs.effectsIn_nodup honce (Reachable.invariant hprog hreach) ih

/-- Every record is in the buffer or was taken out. -/
theorem Invariant.length_owners_le {s : State κ α ε} (hi : Invariant cap prog s) :
    s.ring.owners.length ≤ cap + s.ring.head := by
  have hroom := hi.room
  have hlen : s.ring.owners.length = s.ring.log.length := List.length_map ..
  simp only [Ring.used] at hroom
  omega

/-- An invocation with an effect in `P` has a record. -/
theorem Reachable.mem_owners_of_effect {P : ε → Bool} (hprog : ∀ c, (prog c).OneShot)
    (honce : ∀ c, (prog c).OnceSubmitted P) {s : State κ α ε} (h : Reachable cap prog s) {i : Nat}
    (hmem : i ∈ (s.effectsIn P).map Prod.fst) : i ∈ s.ring.owners := by
  have hi := Reachable.invariant hprog h
  obtain ⟨e, heff, hP⟩ := State.mem_effectsIn hmem
  obtain ⟨inv, hinv, hlog⟩ := (hi.effects i e).mp heff
  obtain ⟨k, r, hsubmit⟩ := (honce inv.call).submits _ _ _ (hi.exec i inv hinv) hlog hP
  exact mem_owners (hi.submitted i inv k r hinv hsubmit)

theorem Reachable.length_effects_le {P : ε → Bool} (hprog : ∀ c, (prog c).OneShot)
    (honce : ∀ c, (prog c).OnceSubmitted P) {s : State κ α ε} (h : Reachable cap prog s) :
    (s.effectsIn P).length ≤ cap + s.ring.head := by
  have hsub : (s.effectsIn P).map Prod.fst ⊆ s.ring.owners :=
    fun i hmem => h.mem_owners_of_effect hprog honce hmem
  have hle := ((h.effectsIn_nodup hprog honce).subperm hsub).length_le
  rw [List.length_map] at hle
  exact Nat.le_trans hle (Reachable.invariant hprog h).length_owners_le

/-! ## Runs without polls -/

/-- The runs from `s` in which the consumer takes nothing out. -/
def Unpolled (cap : Nat) (prog : κ → Prog α ε) : State κ α ε → State κ α ε → Prop :=
  Relation.ReflTransGen fun s t => ∃ l, l ≠ .poll ∧ Step cap prog s l t

theorem Step.head_eq {s t : State κ α ε} {l : Label κ α ε} (hs : Step cap prog s l t)
    (hl : l ≠ .poll) : t.ring.head = s.ring.head := by
  cases hs with
  | enter c => rfl
  | @act i inv a p ring hinv hp hd =>
      cases hd with
      | reserve | full | submit | discard | emit => rfl
  | deliver => exact absurd rfl hl
  | skip => exact absurd rfl hl

theorem Unpolled.head_eq {s t : State κ α ε} (h : Unpolled cap prog s t) :
    t.ring.head = s.ring.head := by
  induction h with
  | refl => rfl
  | tail _ hs ih =>
      obtain ⟨l, hl, hs⟩ := hs
      exact (hs.head_eq hl).trans ih

/-- Nobody gets a record of a full buffer. -/
theorem Step.owners_eq_of_full {s t : State κ α ε} {l : Label κ α ε} (hs : Step cap prog s l t)
    (hl : l ≠ .poll) (hfull : cap ≤ s.ring.used) :
    t.ring.owners = s.ring.owners ∧ t.ring.used = s.ring.used := by
  cases hs with
  | enter c => exact ⟨rfl, rfl⟩
  | @act i inv a p ring hinv hp hd =>
      cases hd with
      | reserve old hroom => exact absurd hroom (Nat.not_lt.mpr hfull)
      | full | emit => exact ⟨rfl, rfl⟩
      | submit | discard =>
          refine ⟨Ring.owners_commit .., ?_⟩
          simp [Ring.used, Ring.commit, State.perform]
  | deliver => exact absurd rfl hl
  | skip => exact absurd rfl hl

theorem Unpolled.owners_eq_of_full {s t : State κ α ε} (h : Unpolled cap prog s t)
    (hfull : cap ≤ s.ring.used) :
    t.ring.owners = s.ring.owners ∧ t.ring.used = s.ring.used := by
  induction h with
  | refl => exact ⟨rfl, rfl⟩
  | tail _ hs ih =>
      obtain ⟨l, hl, hs⟩ := hs
      have hfull := Nat.le_trans hfull (Nat.le_of_eq ih.2.symm)
      obtain ⟨howners, hused⟩ := hs.owners_eq_of_full hl hfull
      exact ⟨howners.trans ih.1, hused.trans ih.2⟩

theorem Unpolled.reachable {s t : State κ α ε} (h : Unpolled cap prog s t)
    (hs : Reachable cap prog s) : Reachable cap prog t :=
  hs.trans (Relation.ReflTransGen.mono (fun _ _ ⟨l, _, hstep⟩ => ⟨l, trivial, hstep⟩) s t h)

/-! ## Draining -/

/-- The runs of polls. -/
def Polled (cap : Nat) (prog : κ → Prog α ε) : State κ α ε → State κ α ε → Prop :=
  Relation.ReflTransGen fun s t => Step cap prog s .poll t

theorem Polled.reachable {s t : State κ α ε} (h : Polled cap prog s t)
    (hs : Reachable cap prog s) : Reachable cap prog t :=
  hs.trans (Relation.ReflTransGen.mono (fun _ _ hstep => ⟨_, trivial, hstep⟩) s t h)

/-- With no open record in the buffer, a poll takes the next one out. -/
theorem State.can_poll {s : State κ α ε} (hlt : s.ring.head < s.ring.log.length)
    (hclosed : ∀ h i : Nat, s.ring.log[h]? ≠ some (i, Slot.busy)) :
    ∃ t, Step cap prog s .poll t ∧ t.ring = s.ring.advance ∧ t.calls = s.calls := by
  have hget := List.getElem?_eq_getElem hlt
  rcases hrec : s.ring.log[s.ring.head] with ⟨i, _ | r | _⟩
  · rw [hrec] at hget
    exact absurd hget (hclosed _ _)
  · rw [hrec] at hget
    exact ⟨_, .deliver hget, rfl, rfl⟩
  · rw [hrec] at hget
    exact ⟨_, .skip hget, rfl, rfl⟩

theorem State.can_drain {s : State κ α ε} (hle : s.ring.head ≤ s.ring.log.length)
    (hclosed : ∀ h i : Nat, s.ring.log[h]? ≠ some (i, Slot.busy)) :
    ∃ t, Polled cap prog s t ∧ t.ring = ⟨s.ring.log, s.ring.log.length⟩ ∧ t.calls = s.calls := by
  generalize hn : s.ring.log.length - s.ring.head = n
  induction n generalizing s with
  | zero =>
      refine ⟨s, .refl, ?_, rfl⟩
      have hhead : s.ring.head = s.ring.log.length := by omega
      rw [← hhead]
  | succ n ih =>
      obtain ⟨s', hs, hring, hcalls⟩ : ∃ s', Step cap prog s .poll s' ∧
          s'.ring = s.ring.advance ∧ s'.calls = s.calls := State.can_poll (by omega) hclosed
      have hlog : s'.ring.log = s.ring.log := by rw [hring]; rfl
      have hhead : s'.ring.head = s.ring.head + 1 := by rw [hring]; rfl
      obtain ⟨t, ht, htring, htcalls⟩ := ih (s := s') (by rw [hlog]; omega)
        (by rw [hlog]; exact hclosed) (by rw [hlog]; omega)
      exact ⟨t, .head hs ht, by rw [htring, hlog], htcalls.trans hcalls⟩

/-- When every invocation has returned, polls empty the buffer, and the consumer
has been handed exactly what was submitted. -/
theorem Reachable.drain (hprog : ∀ c, (prog c).OneShot) {s : State κ α ε}
    (h : Reachable cap prog s) (hret : ∀ i < s.calls.length, s.Returned i) :
    ∃ t, Polled cap prog s t ∧ t.calls = s.calls ∧ t.ring.used = 0 ∧
      ∀ i r, (i, r) ∈ t.delivered ↔
        ∃ (inv : Invocation κ α ε) (k : Nat),
          s.calls[i]? = some inv ∧ Act.submit k r ∈ inv.log := by
  have hi := Reachable.invariant hprog h
  have hclosed : ∀ k i : Nat, s.ring.log[k]? ≠ some (i, Slot.busy) := by
    intro k i hk
    exact hi.no_open (hret i (hi.owners_lt i (mem_owners hk))) k hk
  obtain ⟨t, ht, hring, hcalls⟩ : ∃ t, Polled cap prog s t ∧
      t.ring = ⟨s.ring.log, s.ring.log.length⟩ ∧ t.calls = s.calls :=
    State.can_drain hi.head_le hclosed
  have hit := Reachable.invariant hprog (ht.reachable h)
  refine ⟨t, ht, hcalls, by rw [hring, Ring.used, Nat.sub_self], fun i r => ⟨fun hmem => ?_, ?_⟩⟩
  · obtain ⟨inv, k, hinv, hsub⟩ := hit.delivered_submitted hmem
    rw [hcalls] at hinv
    exact ⟨inv, k, hinv, hsub⟩
  · rintro ⟨inv, k, hinv, hsub⟩
    have hk := hi.submitted i inv k r hinv hsub
    rw [hit.delivered, hring]
    simp only [List.take_length]
    exact List.mem_filterMap.mpr ⟨(i, .ready r), List.mem_of_getElem? hk, rfl⟩

end RingBuffer

import Mathlib.Data.List.Basic

/-!
# Programs that produce into a ring buffer

A producer reserves a record of a shared ring buffer, fills it, and either
submits or discards it.  `Prog` is such a program as the tree of its actions on
what it shares with other programs.  What it computes in between is in the
continuations.  The continuation of `reserve` receives the handle of the new
record and the bytes it held before, or nothing when the buffer was full.
`emit` is any other effect on the outside.

A program is *one-shot* (`Prog.OneShot`) when each of its paths reserves at
most once and commits the record it reserved exactly once.  The three
predicates `OneShot`, `Holding` and `Quiet` are the stages of such a program:
before its reservation, with an open one, and after.  Each has a lemma that
says what one action does to it.

`Prog.produce` is the usual shape: reserve, fill, and submit, or discard when
there is nothing to report.  `submissions` is what an execution submits.
-/

namespace RingBuffer

/-- A producer, as the tree of its actions. -/
inductive Prog (α ε : Type) : Type where
  | ret
  | reserve (next : Option (Nat × α) → Prog α ε)
  | submit (h : Nat) (r : α) (next : Prog α ε)
  | discard (h : Nat) (next : Prog α ε)
  | emit (e : ε) (next : Prog α ε)

/-- An action, with the result it had. -/
inductive Act (α ε : Type) : Type where
  /-- A reservation: the handle and the old bytes, or nothing. -/
  | reserve (got : Option (Nat × α))
  | submit (h : Nat) (r : α)
  | discard (h : Nat)
  | emit (e : ε)

variable {α ε : Type}

/-- The program has returned. -/
def Prog.isRet : Prog α ε → Bool
  | .ret => true
  | _ => false

@[simp] theorem Prog.isRet_iff {p : Prog α ε} : p.isRet = true ↔ p = .ret := by
  cases p <;> simp [Prog.isRet]

/-! ## Executions -/

/-- One action of a program.  The result of a reservation is not the program's
to choose. -/
inductive Prog.Step : Prog α ε → Act α ε → Prog α ε → Prop where
  | reserve {next : Option (Nat × α) → Prog α ε} (got : Option (Nat × α)) :
      Step (.reserve next) (.reserve got) (next got)
  | submit {h : Nat} {r : α} {p : Prog α ε} : Step (.submit h r p) (.submit h r) p
  | discard {h : Nat} {p : Prog α ε} : Step (.discard h p) (.discard h) p
  | emit {e : ε} {p : Prog α ε} : Step (.emit e p) (.emit e) p

/-- Induction on what is left of a program: each action leaves less of it. -/
theorem Prog.step_induction {C : Prog α ε → Prop}
    (ih : ∀ p : Prog α ε, (∀ a q, p.Step a q → C q) → C p) (p : Prog α ε) : C p := by
  induction p with
  | ret => exact ih _ fun a q h => by cases h
  | reserve next hnext =>
      refine ih _ fun a q h => ?_
      cases h
      exact hnext _
  | submit h r p hp =>
      refine ih _ fun a q h => ?_
      cases h
      exact hp
  | discard h p hp =>
      refine ih _ fun a q h => ?_
      cases h
      exact hp
  | emit e p hp =>
      refine ih _ fun a q h => ?_
      cases h
      exact hp

/-- `p.Exec l q`: the actions `l` take `p` to `q`. -/
inductive Prog.Exec : Prog α ε → List (Act α ε) → Prog α ε → Prop where
  | refl {p : Prog α ε} : Exec p [] p
  | step {p q r : Prog α ε} {a : Act α ε} {l : List (Act α ε)} :
      Step p a q → Exec q l r → Exec p (a :: l) r

theorem Prog.Exec.snoc {p q r : Prog α ε} {l : List (Act α ε)} {a : Act α ε}
    (h : p.Exec l q) (hs : q.Step a r) : p.Exec (l ++ [a]) r := by
  induction h with
  | refl => exact .step hs .refl
  | step hfirst _ ih => exact .step hfirst (ih hs)

theorem Prog.Exec.trans {p q r : Prog α ε} {l l' : List (Act α ε)} (h : p.Exec l q)
    (h' : q.Exec l' r) : p.Exec (l ++ l') r := by
  induction h with
  | refl => exact h'
  | step hfirst _ ih => exact .step hfirst (ih h')

theorem Prog.Exec.of_ret {q : Prog α ε} {l : List (Act α ε)} (h : Prog.ret.Exec l q) :
    l = [] ∧ q = .ret := by
  cases h with
  | refl => exact ⟨rfl, rfl⟩
  | step hs _ => cases hs

/-- Every program returns.  Here each of its reservations gets record `h`, with
the old bytes `old`. -/
theorem Prog.exists_exec (h : Nat) (old : α) (p : Prog α ε) :
    ∃ l, p.Exec l .ret ∧ Act.reserve none ∉ l := by
  induction p with
  | ret => exact ⟨[], .refl, by simp⟩
  | reserve next ih =>
      obtain ⟨l, he, hroom⟩ := ih (some (h, old))
      exact ⟨_, .step (.reserve (some (h, old))) he, by simp [hroom]⟩
  | submit h r p ih =>
      obtain ⟨l, he, hroom⟩ := ih
      exact ⟨_, .step .submit he, by simp [hroom]⟩
  | discard h p ih =>
      obtain ⟨l, he, hroom⟩ := ih
      exact ⟨_, .step .discard he, by simp [hroom]⟩
  | emit e p ih =>
      obtain ⟨l, he, hroom⟩ := ih
      exact ⟨_, .step .emit he, by simp [hroom]⟩

/-! ## The stages of a one-shot program -/

/-- No further action on the buffer. -/
def Prog.Quiet : Prog α ε → Prop
  | .ret => True
  | .emit _ p => p.Quiet
  | _ => False

/-- Record `h` is open, and is committed once on every path. -/
def Prog.Holding (h : Nat) : Prog α ε → Prop
  | .submit h' _ p => h' = h ∧ p.Quiet
  | .discard h' p => h' = h ∧ p.Quiet
  | .emit _ p => p.Holding h
  | _ => False

/-- At most one reservation on every path, committed once where it succeeds. -/
def Prog.OneShot : Prog α ε → Prop
  | .ret => True
  | .emit _ p => p.OneShot
  | .reserve next => (next none).Quiet ∧ ∀ h old, (next (some (h, old))).Holding h
  | _ => False

theorem Prog.Quiet.act {p q : Prog α ε} {a : Act α ε} (hp : p.Quiet) (hs : p.Step a q) :
    (∃ e, a = .emit e) ∧ q.Quiet := by
  cases hs with
  | reserve => exact hp.elim
  | submit => exact hp.elim
  | discard => exact hp.elim
  | @emit e _ => exact ⟨⟨e, rfl⟩, hp⟩

theorem Prog.Holding.act {p q : Prog α ε} {a : Act α ε} {h : Nat} (hp : p.Holding h)
    (hs : p.Step a q) :
    (∃ e, a = .emit e ∧ q.Holding h) ∨ (∃ r, a = .submit h r ∧ q.Quiet) ∨
      (a = .discard h ∧ q.Quiet) := by
  cases hs with
  | reserve => exact hp.elim
  | @submit _ r _ =>
      obtain ⟨rfl, hq⟩ := hp
      exact .inr (.inl ⟨r, rfl, hq⟩)
  | discard =>
      obtain ⟨rfl, hq⟩ := hp
      exact .inr (.inr ⟨rfl, hq⟩)
  | @emit e _ => exact .inl ⟨e, rfl, hp⟩

theorem Prog.OneShot.act {p q : Prog α ε} {a : Act α ε} (hp : p.OneShot) (hs : p.Step a q) :
    (∃ e, a = .emit e ∧ q.OneShot) ∨ (a = .reserve none ∧ q.Quiet) ∨
      (∃ h old, a = .reserve (some (h, old)) ∧ q.Holding h) := by
  cases hs with
  | reserve got =>
      rcases got with _ | ⟨h, old⟩
      · exact .inr (.inl ⟨rfl, hp.1⟩)
      · exact .inr (.inr ⟨h, old, rfl, hp.2 h old⟩)
  | submit => exact hp.elim
  | discard => exact hp.elim
  | @emit e _ => exact .inl ⟨e, rfl, hp⟩

theorem Prog.Quiet.exec {p q : Prog α ε} {l : List (Act α ε)} (hp : p.Quiet) (he : p.Exec l q) :
    ∀ a ∈ l, ∃ e, a = .emit e := by
  induction he with
  | refl => simp
  | step hs _ ih =>
      obtain ⟨hemit, hq⟩ := hp.act hs
      intro a ha
      rcases List.mem_cons.mp ha with rfl | ha
      · exact hemit
      · exact ih hq a ha

/-! ## The submissions of an execution -/

/-- The records a list of actions submits. -/
def submissions : List (Act α ε) → List α
  | [] => []
  | .submit _ r :: l => r :: submissions l
  | _ :: l => submissions l

theorem submissions_of_emit {l : List (Act α ε)} (h : ∀ a ∈ l, ∃ e, a = .emit e) :
    submissions l = [] := by
  induction l with
  | nil => rfl
  | cons a l ih =>
      obtain ⟨e, ha⟩ := h a List.mem_cons_self
      have hrest := ih fun a' ha' => h a' (List.mem_cons_of_mem a ha')
      simp only [ha, submissions, hrest]

theorem Prog.Quiet.submissions {p q : Prog α ε} {l : List (Act α ε)} (hp : p.Quiet)
    (he : p.Exec l q) : submissions l = [] :=
  submissions_of_emit (hp.exec he)

/-! ## Reserve, fill, commit -/

/-- Reserve a record and fill it from its old bytes.  Submit it and go on, or
discard it and return when `fill` has nothing to report.  Return when the
buffer is full. -/
def Prog.produce (fill : α → Option α) (next : Prog α ε) : Prog α ε :=
  .reserve fun
    | none => .ret
    | some (h, old) =>
        match fill old with
        | some r => .submit h r next
        | none => .discard h .ret

theorem Prog.produce_oneShot (fill : α → Option α) {next : Prog α ε} (hn : next.Quiet) :
    (Prog.produce fill next).OneShot := by
  refine ⟨trivial, fun h old => ?_⟩
  cases hf : fill old with
  | none => simp [hf, Prog.Holding, Prog.Quiet]
  | some r => simp [hf, Prog.Holding, hn]

/-- What an execution of `produce` can be: nothing yet, a full buffer, an open
record, a discarded one, or a submitted one with the start of what follows. -/
theorem Prog.produce_exec {fill : α → Option α} {next q : Prog α ε} {l : List (Act α ε)}
    (he : (Prog.produce fill next).Exec l q) :
    (l = [] ∧ ¬ q.isRet) ∨ (l = [.reserve none] ∧ q = .ret) ∨
    ∃ h old,
      (l = [.reserve (some (h, old))] ∧ ¬ q.isRet) ∨
      (fill old = none ∧ l = [.reserve (some (h, old)), .discard h] ∧ q = .ret) ∨
      (∃ r l', fill old = some r ∧
        l = .reserve (some (h, old)) :: .submit h r :: l' ∧ next.Exec l' q) := by
  cases he with
  | refl => exact .inl ⟨rfl, by simp [Prog.produce, Prog.isRet]⟩
  | step hs he =>
      cases hs with
      | reserve got =>
          rcases got with _ | ⟨h, old⟩
          · obtain ⟨rfl, rfl⟩ := Prog.Exec.of_ret he
            exact .inr (.inl ⟨rfl, rfl⟩)
          · refine .inr (.inr ⟨h, old, ?_⟩)
            cases hf : fill old with
            | none =>
                simp only [hf] at he
                cases he with
                | refl => exact .inl ⟨rfl, by simp [Prog.isRet]⟩
                | step hs he =>
                    cases hs
                    obtain ⟨rfl, rfl⟩ := Prog.Exec.of_ret he
                    exact .inr (.inl ⟨rfl, rfl, rfl⟩)
            | some r =>
                simp only [hf] at he
                cases he with
                | refl => exact .inl ⟨rfl, by simp [Prog.isRet]⟩
                | step hs he =>
                    cases hs
                    exact .inr (.inr ⟨r, _, rfl, rfl, he⟩)

theorem Prog.produce_submit {fill : α → Option α} {next q : Prog α ε} {l : List (Act α ε)}
    (hn : next.Quiet) (he : (Prog.produce fill next).Exec l q) {h : Nat} {r : α}
    (hmem : Act.submit h r ∈ l) : ∃ old, fill old = some r := by
  rcases Prog.produce_exec he with ⟨rfl, -⟩ | ⟨rfl, -⟩ | ⟨h', old, hcase⟩
  · simp at hmem
  · simp at hmem
  · rcases hcase with ⟨rfl, -⟩ | ⟨-, rfl, -⟩ | ⟨r', l', hf, rfl, he'⟩
    · simp at hmem
    · simp at hmem
    · simp only [List.mem_cons, reduceCtorEq, Act.submit.injEq, false_or] at hmem
      rcases hmem with ⟨-, rfl⟩ | hmem
      · exact ⟨old, hf⟩
      · obtain ⟨e, he⟩ := hn.exec he' _ hmem
        cases he

/-- A returned `produce` whose reservation succeeded has discarded its record,
or submitted it and run what follows to its end. -/
theorem Prog.produce_returned {fill : α → Option α} {next : Prog α ε} {l : List (Act α ε)}
    (he : (Prog.produce fill next).Exec l .ret) (hroom : Act.reserve none ∉ l) :
    ∃ h old,
      (fill old = none ∧ l = [.reserve (some (h, old)), .discard h]) ∨
      (∃ r l', fill old = some r ∧
        l = .reserve (some (h, old)) :: .submit h r :: l' ∧ next.Exec l' .ret) := by
  rcases Prog.produce_exec he with ⟨-, hret⟩ | ⟨rfl, -⟩ | ⟨h, old, hcase⟩
  · simp at hret
  · simp at hroom
  · rcases hcase with ⟨-, hret⟩ | ⟨hf, hl, -⟩ | hsub
    · simp at hret
    · exact ⟨h, old, .inl ⟨hf, hl⟩⟩
    · exact ⟨h, old, .inr hsub⟩

/-- Such a `produce` has submitted what `fill` gave, and nothing else. -/
theorem Prog.produce_submissions {fill : α → Option α} {next : Prog α ε} {l : List (Act α ε)}
    (hn : next.Quiet) (he : (Prog.produce fill next).Exec l .ret)
    (hroom : Act.reserve none ∉ l) : ∃ old, submissions l = (fill old).toList := by
  obtain ⟨h, old, ⟨hf, rfl⟩ | ⟨r, l', hf, rfl, he'⟩⟩ := Prog.produce_returned he hroom
  · exact ⟨old, by simp [RingBuffer.submissions, hf]⟩
  · exact ⟨old, by simp [RingBuffer.submissions, hf, hn.submissions he']⟩

/-! ## Output in one call -/

/-- Reserve a record, write it and submit it, in a call whose result is ignored.
The program goes on in the same way when the buffer was full. -/
def Prog.output (r : α) (next : Prog α ε) : Prog α ε :=
  .reserve fun
    | none => next
    | some (h, _) => .submit h r next

theorem Prog.output_oneShot (r : α) {next : Prog α ε} (hn : next.Quiet) :
    (Prog.output r next).OneShot :=
  ⟨hn, fun _ _ => ⟨rfl, hn⟩⟩

/-- An execution of `output` to its end submitted the record unless the buffer
was full. -/
theorem Prog.output_exec {r : α} {next : Prog α ε} {l : List (Act α ε)}
    (he : (Prog.output r next).Exec l .ret) :
    (∃ l', l = .reserve none :: l' ∧ next.Exec l' .ret) ∨
      ∃ h old l', l = .reserve (some (h, old)) :: .submit h r :: l' ∧ next.Exec l' .ret := by
  cases he with
  | step hs he =>
      cases hs with
      | reserve got =>
          rcases got with _ | ⟨h, old⟩
          · exact .inl ⟨_, rfl, he⟩
          · cases he with
            | step hs he =>
                cases hs
                exact .inr ⟨h, old, _, rfl, he⟩

end RingBuffer

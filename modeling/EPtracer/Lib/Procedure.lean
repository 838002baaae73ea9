import Mathlib.Data.List.Basic

/-!
# Procedures

A procedure is a tree of calls: it makes a call, and goes on by what the call
returns.  It is made with `do`, as the code of a procedure is written.  The calls
come from outside and nothing is assumed of them here.

What a procedure does is the list of its calls with their answers, its history.
A contract says what a procedure guarantees of each call, in the history it is
made in, if each answer is one it relies on.  `wp` is the condition under which
a procedure keeps its contract from a history on.  It is kept by every call
(`wp_step`), and so over all of an execution (`wp_exec`).
-/

namespace Procedure

/-- The calls a procedure can make, and what each can return. -/
structure Interface where
  Call : Type
  Answer : Call → Type

/-- A call that has returned. -/
structure Event (I : Interface) where
  call : I.Call
  answer : I.Answer call

/-- Calls with their answers, oldest first. -/
abbrev History (I : Interface) := List (Event I)

/-- A procedure that returns an `R`, or ends the process.  Each turn of a loop
begins with a call, and the loop goes on while a turn returns `none`. -/
inductive Proc (I : Interface) : Type → Type 1 where
  | ret {R : Type} (r : R) : Proc I R
  | exit {R : Type} (status : Int32) : Proc I R
  | call {R : Type} (c : I.Call) (next : I.Answer c → Proc I R) : Proc I R
  | loop {S R : Type} (c : I.Call) (turn : I.Answer c → Proc I (Option S))
      (next : S → Proc I R) : Proc I R

variable {I : Interface}

namespace Proc

/-- Run a procedure, and go on with what it returns. -/
def bind {R S : Type} : Proc I R → (R → Proc I S) → Proc I S
  | .ret r, f => f r
  | .exit status, _ => .exit status
  | .call c next, f => .call c fun a => (next a).bind f
  | .loop c turn next, f => .loop c turn fun s => (next s).bind f

instance : Monad (Proc I) where
  pure := ret
  bind := bind

/-- Make one call, and return its answer. -/
def perform (c : I.Call) : Proc I (I.Answer c) := .call c .ret

theorem ret_bind {R S : Type} {r : R} {f : R → Proc I S} : (ret r >>= f) = f r := rfl

theorem call_bind {R S : Type} {c : I.Call} {next : I.Answer c → Proc I R}
    {f : R → Proc I S} : (call c next >>= f) = .call c fun a => next a >>= f := rfl

/-- What follows a turn of a loop. -/
def afterTurn {S R : Type} (c : I.Call) (turn : I.Answer c → Proc I (Option S))
    (next : S → Proc I R) : Option S → Proc I R
  | none => .loop c turn next
  | some s => next s

/-! ## Executions -/

/-- The procedure makes a call, gets an answer and goes on. -/
inductive Step : {R : Type} → Proc I R → Event I → Proc I R → Prop where
  | call {R : Type} {c : I.Call} {next : I.Answer c → Proc I R} (a : I.Answer c) :
      Step (.call c next) ⟨c, a⟩ (next a)
  | loop {S R : Type} {c : I.Call} {turn : I.Answer c → Proc I (Option S)}
      {next : S → Proc I R} (a : I.Answer c) :
      Step (.loop c turn next) ⟨c, a⟩ ((turn a).bind (afterTurn c turn next))

/-- The procedure makes the calls of the list, in this order, and goes on as the
second one. -/
inductive Exec {R : Type} : Proc I R → History I → Proc I R → Prop where
  | refl (p : Proc I R) : Exec p [] p
  | step {p q r : Proc I R} {e : Event I} {l : History I} :
      Step p e q → Exec q l r → Exec p (e :: l) r

theorem Exec.call {R : Type} {c : I.Call} {next : I.Answer c → Proc I R} {a : I.Answer c}
    {l : History I} {q : Proc I R} (he : (next a).Exec l q) :
    (Proc.call c next).Exec (⟨c, a⟩ :: l) q :=
  .step (.call a) he

theorem Exec.loop {S R : Type} {c : I.Call} {turn : I.Answer c → Proc I (Option S)}
    {next : S → Proc I R} {a : I.Answer c} {l : History I} {q : Proc I R}
    (he : ((turn a).bind (afterTurn c turn next)).Exec l q) :
    (Proc.loop c turn next).Exec (⟨c, a⟩ :: l) q :=
  .step (.loop a) he

theorem Exec.snoc {R : Type} {p q r : Proc I R} {l : History I} {e : Event I}
    (he : p.Exec l q) (hs : q.Step e r) : p.Exec (l ++ [e]) r := by
  induction he with
  | refl p => exact .step hs (.refl _)
  | step hstep _ ih => exact .step hstep (ih hs)

/-- What a procedure does first. -/
inductive Head (I : Interface) (R : Type) where
  | ret (r : R)
  | exit (status : Int32)
  | call (c : I.Call) (next : I.Answer c → Proc I R)

/-- What a procedure does next.  A loop makes the call of its first turn. -/
def head {R : Type} : Proc I R → Head I R
  | .ret r => .ret r
  | .exit status => .exit status
  | .call c next => .call c next
  | .loop c turn next => .call c fun a => (turn a).bind (afterTurn c turn next)

theorem step_of_head {R : Type} {p : Proc I R} {c : I.Call} {next : I.Answer c → Proc I R}
    (h : p.head = .call c next) (a : I.Answer c) : p.Step ⟨c, a⟩ (next a) := by
  cases p with
  | ret r => cases h
  | exit status => cases h
  | call c' next' =>
      cases h
      exact .call a
  | loop c' turn next' =>
      cases h
      exact .loop a

/-- A procedure without loops. -/
def LoopFree : {R : Type} → Proc I R → Prop
  | _, .ret _ => True
  | _, .exit _ => True
  | _, .call _ next => ∀ a, (next a).LoopFree
  | _, .loop _ _ _ => False

theorem LoopFree.pure {R : Type} (r : R) : (Pure.pure r : Proc I R).LoopFree := trivial

theorem LoopFree.perform (c : I.Call) : (perform c).LoopFree := fun _ => trivial

theorem LoopFree.ite {R : Type} {c : Prop} [Decidable c] {p q : Proc I R} (hp : p.LoopFree)
    (hq : q.LoopFree) : (if c then p else q).LoopFree := by
  split
  · exact hp
  · exact hq

theorem LoopFree.bind {R S : Type} {p : Proc I R} {f : R → Proc I S} (hp : p.LoopFree)
    (hf : ∀ r, (f r).LoopFree) : (p >>= f).LoopFree := by
  change (p.bind f).LoopFree
  induction p with
  | ret r => exact hf r
  | exit status => trivial
  | call c next ih => exact fun a => ih a (hp a) hf
  | loop c turn next => exact absurd hp id

/-- Every call of the procedure that returns is one of `P`. -/
def Makes (P : I.Call → Prop) : {R : Type} → Proc I R → Prop
  | _, .ret _ => True
  | _, .exit _ => True
  | _, .call c next => ∀ a, P c ∧ (next a).Makes P
  | _, .loop c turn next => (∀ a, P c ∧ (turn a).Makes P) ∧ ∀ s, (next s).Makes P

section

variable {P : I.Call → Prop}

theorem Makes.pure {R : Type} (r : R) : (Pure.pure r : Proc I R).Makes P := trivial

theorem Makes.perform {c : I.Call} (hc : P c) : (perform c).Makes P :=
  fun _ => ⟨hc, trivial⟩

theorem Makes.ite {R : Type} {c : Prop} [Decidable c] {p q : Proc I R} (hp : p.Makes P)
    (hq : q.Makes P) : (if c then p else q).Makes P := by
  split
  · exact hp
  · exact hq

theorem Makes.bind {R S : Type} {p : Proc I R} {f : R → Proc I S} (hp : p.Makes P)
    (hf : ∀ r, (f r).Makes P) : (p >>= f).Makes P := by
  change (p.bind f).Makes P
  induction p with
  | ret r => exact hf r
  | exit status => trivial
  | call c next ih => exact fun a => ⟨(hp a).1, ih a (hp a).2 hf⟩
  | loop c turn next _ ih => exact ⟨hp.1, fun s => ih s (hp.2 s) hf⟩

/-- Without loops, it is enough to look at the executions. -/
theorem LoopFree.makes {R : Type} {p : Proc I R} (hp : p.LoopFree)
    (h : ∀ l q e q', p.Exec l q → q.Step e q' → P e.call) : p.Makes P := by
  induction p with
  | ret r => trivial
  | exit status => trivial
  | call c next ih =>
      refine fun a => ⟨h [] _ ⟨c, a⟩ _ (.refl _) (.call a), ih a (hp a) ?_⟩
      exact fun l q e q' he hs => h _ q e q' he.call hs
  | loop c turn next => exact absurd hp id

end

end Proc

/-! ## Contracts -/

/-- What a procedure relies on and what it guarantees.  `guar h e` is about the
call `e` after the calls of `h`, and `exits h status` about the end of the
process. -/
structure Contract (I : Interface) where
  /-- What the answer of a call can be. -/
  rely : History I → Event I → Prop
  /-- What is so when a call is made. -/
  guar : History I → Event I → Prop
  /-- What is so when the procedure ends the process. -/
  exits : History I → Int32 → Prop

namespace Proc

variable {C : Contract I} {R S : Type}

/-- From the history on, the procedure keeps its contract, and what it returns is
as `Q` says. -/
def wp (C : Contract I) : {R : Type} → Proc I R → (R → History I → Prop) → History I → Prop
  | _, .ret r, Q, h => Q r h
  | _, .exit status, _, h => C.exits h status
  | _, .call c next, Q, h =>
      ∀ a, C.rely h ⟨c, a⟩ → C.guar h ⟨c, a⟩ ∧ wp C (next a) Q (h ++ [⟨c, a⟩])
  | _, .loop c turn next, Q, h =>
      ∃ Inv : History I → Prop, Inv h ∧ ∀ h, Inv h → ∀ a, C.rely h ⟨c, a⟩ →
        C.guar h ⟨c, a⟩ ∧ wp C (turn a)
          (fun | none, h => Inv h
               | some s, h => wp C (next s) Q h) (h ++ [⟨c, a⟩])

theorem wp_pure {r : R} {Q : R → History I → Prop} {h : History I} :
    (pure r : Proc I R).wp C Q h ↔ Q r h := Iff.rfl

theorem wp_exit {status : Int32} {Q : R → History I → Prop} {h : History I} :
    (exit status : Proc I R).wp C Q h ↔ C.exits h status := Iff.rfl

theorem wp_call {c : I.Call} {next : I.Answer c → Proc I R} {Q : R → History I → Prop}
    {h : History I} : (call c next).wp C Q h ↔
      ∀ a, C.rely h ⟨c, a⟩ → C.guar h ⟨c, a⟩ ∧ (next a).wp C Q (h ++ [⟨c, a⟩]) := Iff.rfl

theorem wp_bind (p : Proc I R) (f : R → Proc I S) (Q : S → History I → Prop) (h : History I) :
    (p.bind f).wp C Q h ↔ p.wp C (fun r h => (f r).wp C Q h) h := by
  induction p generalizing h with
  | ret r => rfl
  | exit status => rfl
  | call c next ih => simp only [bind, wp, ih]
  | loop c turn next _ ih => simp only [bind, wp, ih]

theorem wp_bind_iff {p : Proc I R} {f : R → Proc I S} {Q : S → History I → Prop}
    {h : History I} : (p >>= f).wp C Q h ↔ p.wp C (fun r h => (f r).wp C Q h) h :=
  wp_bind p f Q h

theorem wp_mono {p : Proc I R} {Q Q' : R → History I → Prop} {h : History I}
    (hQ : ∀ r h, Q r h → Q' r h) (hp : p.wp C Q h) : p.wp C Q' h := by
  induction p generalizing h with
  | ret r => exact hQ r h hp
  | exit status => exact hp
  | call c next ih =>
      intro a hr
      obtain ⟨hg, hn⟩ := hp a hr
      exact ⟨hg, ih a hQ hn⟩
  | loop c turn next ihturn ih =>
      obtain ⟨Inv, hinv, hturn⟩ := hp
      refine ⟨Inv, hinv, fun h hinv a hr => ?_⟩
      obtain ⟨hg, hn⟩ := hturn h hinv a hr
      refine ⟨hg, ihturn a ?_ hn⟩
      intro s h hs
      cases s with
      | none => exact hs
      | some s => exact ih s hQ hs

/-- A call with an answer the procedure relies on is one it guarantees, and the
contract is kept on. -/
theorem wp_step {p q : Proc I R} {e : Event I} {Q : R → History I → Prop} {h : History I}
    (hp : p.wp C Q h) (hs : p.Step e q) (hr : C.rely h e) :
    C.guar h e ∧ q.wp C Q (h ++ [e]) := by
  cases hs with
  | call a => exact hp a hr
  | loop a =>
      obtain ⟨Inv, hinv, hturn⟩ := hp
      obtain ⟨hg, hn⟩ := hturn h hinv a hr
      refine ⟨hg, (wp_bind _ _ Q _).mpr (wp_mono ?_ hn)⟩
      intro s h hs
      cases s with
      | none => exact ⟨Inv, hs, hturn⟩
      | some s => exact hs

theorem wp_exec {p q : Proc I R} {l : History I} {Q : R → History I → Prop} {h : History I}
    (hp : p.wp C Q h) (he : p.Exec l q)
    (hr : ∀ before e after, l = before ++ e :: after → C.rely (h ++ before) e) :
    q.wp C Q (h ++ l) ∧
      ∀ before e after, l = before ++ e :: after → C.guar (h ++ before) e := by
  induction he generalizing h with
  | refl p =>
      rw [List.append_nil]
      exact ⟨hp, fun before e after hl => absurd hl (by simp)⟩
  | @step p q r e l hs _ ih =>
      have hfirst := hr [] e l rfl
      rw [List.append_nil] at hfirst
      obtain ⟨hg, hq⟩ := wp_step hp hs hfirst
      obtain ⟨hend, hrest⟩ := ih hq fun before e' after hl => by
        have hnext := hr (e :: before) e' after (by rw [hl, List.cons_append])
        rwa [List.append_cons] at hnext
      rw [List.append_cons]
      refine ⟨hend, fun before e' after hl => ?_⟩
      cases before with
      | nil =>
          obtain ⟨rfl, rfl⟩ := List.cons.inj hl
          rwa [List.append_nil]
      | cons e'' before =>
          obtain ⟨rfl, rfl⟩ := List.cons.inj hl
          rw [List.append_cons]
          exact hrest before e' after rfl

/-- A procedure without loops keeps its contract if all its executions do. -/
theorem wp_of_exec {p : Proc I R} (hp : p.LoopFree) {Q : R → History I → Prop} {h : History I}
    (hguar : ∀ l q e q', p.Exec l q → q.Step e q' → C.guar (h ++ l) e)
    (hret : ∀ l r, p.Exec l (ret r) → Q r (h ++ l))
    (hexit : ∀ l status, p.Exec l (exit status) → C.exits (h ++ l) status) : p.wp C Q h := by
  induction p generalizing h with
  | ret r => simpa [wp] using hret [] r (.refl _)
  | exit status => simpa [wp] using hexit [] status (.refl _)
  | call c next ih =>
      refine fun a _ => ⟨?_, ih a (hp a) ?_ ?_ ?_⟩
      · simpa using hguar [] _ _ _ (.refl _) (.call a)
      · intro l q e q' he hs
        simpa using hguar (⟨c, a⟩ :: l) q e q' he.call hs
      · intro l r he
        simpa using hret (⟨c, a⟩ :: l) r he.call
      · intro l status he
        simpa using hexit (⟨c, a⟩ :: l) status he.call
  | loop c turn next => exact absurd hp id

/-- A procedure that makes only calls of `P` keeps every contract that guarantees
those. -/
theorem Makes.wp {P : I.Call → Prop} {p : Proc I R} (hp : p.Makes P)
    (hguar : ∀ h e, P e.call → C.guar h e) (hexits : ∀ h status, C.exits h status)
    {Q : R → History I → Prop} {h : History I}
    (hQ : ∀ r l, (∀ e ∈ l, P e.call) → Q r (h ++ l)) : p.wp C Q h := by
  induction p generalizing h with
  | ret r => simpa [Proc.wp] using hQ r []
  | exit status => exact hexits h status
  | call c next ih =>
      refine fun a _ => ⟨hguar _ _ (hp a).1, ih a (hp a).2 fun r l hl => ?_⟩
      rw [← List.append_cons]
      exact hQ r _ (List.forall_mem_cons.mpr ⟨(hp a).1, hl⟩)
  | loop c turn next ihturn ih =>
      refine ⟨fun h' => ∃ l, h' = h ++ l ∧ ∀ e ∈ l, P e.call, ⟨[], by simp⟩, ?_⟩
      rintro _ ⟨l, rfl, hl⟩ a _
      obtain ⟨hc, hturn⟩ := hp.1 a
      refine ⟨hguar _ _ hc, ihturn a hturn fun s l' hl' => ?_⟩
      have hall : ∀ e ∈ l ++ ⟨c, a⟩ :: l', P e.call :=
        List.forall_mem_append.mpr ⟨hl, List.forall_mem_cons.mpr ⟨hc, hl'⟩⟩
      rw [← List.append_cons, List.append_assoc]
      cases s with
      | none => exact ⟨_, rfl, hall⟩
      | some s =>
          refine ih s (hp.2 s) fun r l'' hl'' => ?_
          rw [List.append_assoc]
          exact hQ r _ (List.forall_mem_append.mpr ⟨hall, hl''⟩)

end Proc

end Procedure

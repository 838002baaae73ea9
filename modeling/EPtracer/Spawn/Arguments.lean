import EPtracer.Lib.Tokens
import Mathlib.Data.List.Infix

/-!
# The arguments of the program to spawn

`createExecvpArgs` makes what `execvp` takes of the program string: a file and
a vector of arguments, which ends with NULL.  A string with a space in it is
taken apart with `strtok`.  The words are then the vector, and the first one is
the file (`argLoop_spec`).

A string without a space is its own file.  Its vector is empty, and does not
start with the name of the program as the other ones do
(`createExecvpArgs_iff`).

The vector has no slot for a NULL after `MAX_ARGS` arguments.  It needs none,
since the caller's bound on the string allows half as many (`argv_fits`).
-/

namespace EPtracer

open CText

/-- `MAX_ARGS`. -/
def maxArgs : Nat := 100

/-- `MAX_STR_LEN`. -/
def maxStrLen : Nat := 100

/-- A `char **`: what the slots hold that have been written, a pointer into the
program string or NULL. -/
abbrev Argv := Nat → Option (Option Nat)

/-- `argv[i] = v`. -/
def Argv.write (argv : Argv) (i : Nat) (v : Option Nat) : Argv :=
  fun j => if j = i then some v else argv j

/-! ## The code -/

/-- The variables of the loop. -/
structure ArgLoop where
  token : Option Nat
  /-- The program string, with its NUL. -/
  program : Bytes
  /-- What `strtok` has saved. -/
  save : Nat
  argCount : Nat
  argv : Argv

/-- The loop of `create_execvp_args`, with `n` more arguments up to `MAX_ARGS`. -/
def argLoop : Nat → ArgLoop → ArgLoop
  | 0, s => s
  | n + 1, s =>
      match s.token with
      | none => s
      | some token =>
          let (next, program, save) := strtok s.program s.save (ascii " ")
          argLoop n ⟨next, program, save, s.argCount + 1, s.argv.write s.argCount (some token)⟩

/-- What `create_execvp_args` leaves. -/
structure ExecvpArgs where
  program : Bytes
  execvpFile : Option Nat
  execvpArgv : Argv

/-- `create_execvp_args(program, execvp_file, execvp_argv)`. -/
def createExecvpArgs (program : CStr) : ExecvpArgs :=
  let blank : Argv := fun _ => none
  if ¬ ascii " " <:+: program.bytes then ⟨program.bytes ++ [0], some 0, blank.write 0 none⟩
  else
    let (token, string, save) := strtok (program.bytes ++ [0]) 0 (ascii " ")
    let s := argLoop maxArgs ⟨token, string, save, 0, blank⟩
    let execvpArgv := s.argv.write s.argCount none
    ⟨s.program, (execvpArgv 0).join, execvpArgv⟩

/-! ## The vector -/

/-- The slots from `i` on point to the strings, and then there is NULL. -/
def ArgvFrom (program : Bytes) (argv : Argv) : Nat → List Bytes → Prop
  | i, [] => argv i = some none
  | i, w :: ws =>
      (∃ p, argv i = some (some p) ∧ cString (program.drop p) = some w) ∧
        ArgvFrom program argv (i + 1) ws

/-- What `execvp` is given. -/
structure ExecvpArgs.Gives (a : ExecvpArgs) (file : Bytes) (argv : List Bytes) : Prop where
  file : ∃ p, a.execvpFile = some p ∧ cString (a.program.drop p) = some file
  argv : ArgvFrom a.program a.execvpArgv 0 argv

@[simp] theorem Argv.write_same (argv : Argv) (i : Nat) (v : Option Nat) :
    argv.write i v i = some v := if_pos rfl

theorem Argv.write_ne (argv : Argv) {i j : Nat} (v : Option Nat) (h : j ≠ i) :
    argv.write i v j = argv j := if_neg h

/-! ## The loop -/

theorem zero_notMem_space : 0 ∉ ascii " " := by decide

theorem argLoop_of_none (n : Nat) (program : Bytes) (save argCount : Nat) (argv : Argv) :
    argLoop n ⟨none, program, save, argCount, argv⟩ = ⟨none, program, save, argCount, argv⟩ := by
  cases n <;> rfl

/-- A token that is ended in `a` is read whatever follows. -/
theorem cString_token (a d w x : Bytes) (h0 : 0 ∉ w) :
    cString (((a ++ (d ++ (w ++ [0]))) ++ x).drop (a ++ d).length) = some w := by
  have hmem : (a ++ (d ++ (w ++ [0]))) ++ x = (a ++ d) ++ (w ++ 0 :: x) := by simp
  rw [hmem, List.drop_left, cString_append_zero, takeWhile_of_noNul h0]

/-- The loop state when `strtok` has been called on what is left, `r`. -/
def ArgLoop.next (a r : Bytes) (argCount : Nat) (argv : Argv) : ArgLoop :=
  let (token, program, save) := strtok (a ++ (r ++ [0])) a.length (ascii " ")
  ⟨token, program, save, argCount, argv⟩

/-- The loop has written the words of `r` from slot `argCount` on, and has left
the slots before it and the memory in `a`. -/
structure ArgLoop.Wrote (a r : Bytes) (argCount : Nat) (argv : Argv) (s : ArgLoop) : Prop where
  kept : ∃ x, s.program = a ++ x
  count : s.argCount = argCount + (words (ascii " ") r).length
  before : ∀ i < argCount, s.argv i = argv i
  slots : ArgvFrom s.program (s.argv.write s.argCount none) argCount (words (ascii " ") r)

/-- With room for the words, the loop writes all of them. -/
theorem argLoop_spec (n : Nat) (a : Bytes) {r : Bytes} (argCount : Nat) (argv : Argv) (hr : 0 ∉ r)
    (hlen : (words (ascii " ") r).length ≤ n) :
    ArgLoop.Wrote a r argCount argv (argLoop n (ArgLoop.next a r argCount argv)) := by
  induction n generalizing a r argCount argv with
  | zero =>
      rcases strtok_spec a zero_notMem_space hr with
        ⟨hwords, s, hcall⟩ | ⟨d, w, -, -, hwords, -⟩ | ⟨d, w, t, -, -, -, hwords, -⟩
      · rw [ArgLoop.next, hcall, argLoop_of_none]
        exact ⟨⟨_, rfl⟩, by simp [hwords], fun i _ => rfl, by simp [hwords, ArgvFrom]⟩
      · simp [hwords] at hlen
      · simp [hwords] at hlen
  | succ n ih =>
      rcases strtok_spec a zero_notMem_space hr with
        ⟨hwords, s, hcall⟩ | ⟨d, w, hsplit, h0, hwords, hcall⟩ |
        ⟨d, w, t, h0, ht, -, hwords, hcall⟩
      · rw [ArgLoop.next, hcall, argLoop_of_none]
        exact ⟨⟨_, rfl⟩, by simp [hwords], fun i _ => rfl, by simp [hwords, ArgvFrom]⟩
      · -- the next call stands at the NUL
        have hnext : strtok (a ++ (r ++ [0])) (a ++ r).length (ascii " ") =
            (none, a ++ (r ++ [0]), (a ++ r).length) := by
          rw [← List.append_assoc]
          exact strtok_at_end (a ++ r) zero_notMem_space
        rw [ArgLoop.next, hcall]
        simp only [argLoop, hnext, argLoop_of_none]
        refine ⟨⟨_, rfl⟩, by simp [hwords], fun i hi => ?_, ?_⟩
        · exact Argv.write_ne _ _ (Nat.ne_of_lt hi)
        · rw [hwords]
          refine ⟨⟨(a ++ d).length, ?_, ?_⟩, ?_⟩
          · rw [Argv.write_ne _ _ (Nat.ne_of_lt (Nat.lt_succ_self _))]
            exact Argv.write_same _ _ _
          · have htoken := cString_token a d w [] h0
            simpa [hsplit] using htoken
          · exact Argv.write_same _ _ _
      · rw [ArgLoop.next, hcall]
        simp only [argLoop]
        have hlen' : (words (ascii " ") t).length ≤ n := by
          rw [hwords, List.length_cons] at hlen
          omega
        have hrest := ih (a ++ (d ++ (w ++ [0]))) (argCount + 1)
          (argv.write argCount (some (a ++ d).length)) ht hlen'
        simp only [ArgLoop.next] at hrest
        refine ⟨?_, ?_, fun i hi => ?_, ?_⟩
        · obtain ⟨x, hx⟩ := hrest.kept
          exact ⟨(d ++ (w ++ [0])) ++ x, by rw [hx, List.append_assoc]⟩
        · rw [hrest.count, hwords, List.length_cons]
          omega
        · rw [hrest.before i (Nat.lt_succ_of_lt hi), Argv.write_ne _ _ (Nat.ne_of_lt hi)]
        · have hcount := hrest.count
          rw [hwords]
          refine ⟨⟨(a ++ d).length, ?_, ?_⟩, hrest.slots⟩
          · rw [Argv.write_ne _ _ (by omega), hrest.before _ (Nat.lt_succ_self _),
              Argv.write_same]
          · obtain ⟨x, hx⟩ := hrest.kept
            rw [hx]
            exact cString_token a d w x h0

/-! ## Which strings are taken apart -/

/-- The loop of `create_execvp_args`, when it is done. -/
def argLoopEnd (program : CStr) : ArgLoop :=
  argLoop maxArgs (ArgLoop.next [] program.bytes 0 fun _ => none)

/-- With a space in the string the vector is what the loop has written, and
NULL. -/
theorem createExecvpArgs_eq {program : CStr} (hspace : 32 ∈ program.bytes) :
    createExecvpArgs program = ⟨(argLoopEnd program).program,
      ((argLoopEnd program).argv.write (argLoopEnd program).argCount none 0).join,
      (argLoopEnd program).argv.write (argLoopEnd program).argCount none⟩ := by
  have hstr : ascii " " <:+: program.bytes := (List.singleton_infix_iff 32 program.bytes).mpr hspace
  rw [createExecvpArgs, if_neg (not_not_intro hstr)]
  rfl

theorem createExecvpArgs_of_space {program : CStr} (hspace : 32 ∈ program.bytes)
    (hlen : (words (ascii " ") program.bytes).length ≤ maxArgs) {file : Bytes} {ws : List Bytes}
    (hwords : words (ascii " ") program.bytes = file :: ws) :
    (createExecvpArgs program).Gives file (file :: ws) := by
  have hslots := (argLoop_spec maxArgs [] 0 (fun _ => none) program.noNul hlen).slots
  rw [hwords] at hslots
  rw [createExecvpArgs_eq hspace]
  refine ⟨?_, hslots⟩
  obtain ⟨⟨p, hp, hfile⟩, -⟩ := hslots
  exact ⟨p, (congrArg Option.join hp).trans Option.join_some, hfile⟩

theorem createExecvpArgs_eq_of_no_space {program : CStr} (hspace : 32 ∉ program.bytes) :
    createExecvpArgs program =
      ⟨program.bytes ++ [0], some 0, Argv.write (fun _ => none) 0 none⟩ := by
  have hstr : ¬ ascii " " <:+: program.bytes :=
    fun h => hspace ((List.singleton_infix_iff 32 program.bytes).mp h)
  exact if_pos hstr

/-- Without a space the vector is empty. -/
theorem createExecvpArgs_of_no_space {program : CStr} (hspace : 32 ∉ program.bytes) :
    (createExecvpArgs program).Gives program.bytes [] := by
  rw [createExecvpArgs_eq_of_no_space hspace]
  refine ⟨⟨0, rfl, ?_⟩, Argv.write_same (fun _ => none) 0 none⟩
  rw [List.drop_zero, cString_append_zero, takeWhile_of_noNul program.noNul]

/-- The string is taken apart into its words, with or without a space after
it. -/
def TakenApart (program : CStr) : Prop :=
  ∃ file ws, words (ascii " ") program.bytes = file :: ws ∧
    (createExecvpArgs program).Gives file (file :: ws) ∧
    ∀ padded : CStr, padded.bytes = program.bytes ++ ascii " " →
      (createExecvpArgs padded).Gives file (file :: ws)

theorem not_takenApart_of_no_space {program : CStr} (hspace : 32 ∉ program.bytes) :
    ¬ TakenApart program := by
  rintro ⟨file, ws, -, hgives, -⟩
  have hempty := (createExecvpArgs_of_no_space hspace).argv
  obtain ⟨⟨p, hp, -⟩, -⟩ := hgives.argv
  rw [ArgvFrom] at hempty
  rw [hempty] at hp
  cases hp

/-- **Taking a program string apart.**  A string with a word in it is taken
apart exactly if there is a space in it. -/
theorem createExecvpArgs_iff (program : CStr) (hlen : program.bytes.length ≤ maxStrLen)
    (hword : ∃ c ∈ program.bytes, c ≠ 32) :
    TakenApart program ↔ 32 ∈ program.bytes := by
  constructor
  · intro h
    by_contra hspace
    exact not_takenApart_of_no_space hspace h
  · intro hspace
    have hfits := length_words_le (ascii " ") program.bytes
    have hpad : words (ascii " ") (program.bytes ++ ascii " ") =
        words (ascii " ") program.bytes := words_append_delim (by decide) program.bytes
    have hne : words (ascii " ") program.bytes ≠ [] := by
      rw [ne_eq, words_eq_nil_iff]
      intro hall
      obtain ⟨c, hc, hc32⟩ := hword
      exact hc32 (List.mem_singleton.mp (hall c hc))
    obtain ⟨file, ws, hwords⟩ := List.exists_cons_of_ne_nil hne
    simp only [maxStrLen] at hlen
    refine ⟨file, ws, hwords, createExecvpArgs_of_space hspace ?_ hwords, ?_⟩
    · simp only [maxArgs]
      omega
    · intro padded hpadded
      refine createExecvpArgs_of_space ?_ ?_ ?_
      · simp [hpadded, hspace]
      · rw [hpadded, hpad, maxArgs]
        omega
      · rw [hpadded, hpad, hwords]

theorem createExecvpArgs_iff_ls :
    TakenApart ⟨ascii "ls -l", by decide +kernel⟩ ↔ 32 ∈ ascii "ls -l" :=
  createExecvpArgs_iff ⟨ascii "ls -l", by decide +kernel⟩ (by decide +kernel)
    ⟨108, by decide +kernel, by decide⟩

/-- The vector for `sh` does not start with `sh`. -/
theorem no_space_not_takenApart :
    ¬ ∀ program : CStr, program.bytes.length ≤ maxStrLen → (∃ c ∈ program.bytes, c ≠ 32) →
      TakenApart program := by
  intro h
  have hspace : 32 ∉ ascii "sh" := by decide
  have happart := h ⟨ascii "sh", by decide⟩ (by decide) ⟨115, by decide, by decide⟩
  exact not_takenApart_of_no_space hspace happart

/-! ## The slots of the vector -/

/-- The whole pointers in the `sizeof(char *) * MAX_ARGS + 1` bytes of the
vector. -/
def argvSlots : Nat := (8 * maxArgs + 1) / 8

theorem argLoop_stop {s : ArgLoop} (n : Nat) (h : s.token = none) : argLoop n s = s := by
  obtain ⟨token, program, save, argCount, argv⟩ := s
  cases h
  exact argLoop_of_none n program save argCount argv

/-- One more argument. -/
theorem argLoop_token_written (n : Nat) {s : ArgLoop} {token : Nat} (h : s.token = some token) :
    ∃ next program save, argLoop (n + 1) s =
      argLoop n ⟨next, program, save, s.argCount + 1, s.argv.write s.argCount (some token)⟩ := by
  obtain ⟨_, program, save, argCount, argv⟩ := s
  cases h
  exact ⟨_, _, _, rfl⟩

theorem le_argCount_argLoop (n : Nat) (s : ArgLoop) : s.argCount ≤ (argLoop n s).argCount := by
  induction n generalizing s with
  | zero => exact Nat.le_refl _
  | succ n ih =>
      cases htoken : s.token with
      | none => rw [argLoop_stop _ htoken]
      | some token =>
          obtain ⟨next, program, save, hstep⟩ := argLoop_token_written n htoken
          rw [hstep]
          exact Nat.le_trans (Nat.le_succ _) (ih ⟨next, program, save, s.argCount + 1, _⟩)

/-- The loop writes the slots it counts. -/
theorem argLoop_written (n : Nat) (s : ArgLoop) {i : Nat} (h : (argLoop n s).argv i ≠ none) :
    s.argv i ≠ none ∨ i < (argLoop n s).argCount := by
  induction n generalizing s with
  | zero => exact Or.inl h
  | succ n ih =>
      cases htoken : s.token with
      | none =>
          rw [argLoop_stop _ htoken] at h
          exact Or.inl h
      | some token =>
          obtain ⟨next, program, save, hstep⟩ := argLoop_token_written n htoken
          rw [hstep] at h ⊢
          rcases ih _ h with hwritten | hlt
          · rcases eq_or_ne i s.argCount with rfl | hne
            · exact Or.inr (le_argCount_argLoop n ⟨next, program, save, s.argCount + 1, _⟩)
            · exact Or.inl (Argv.write_ne s.argv _ hne ▸ hwritten)
          · exact Or.inr hlt

/-- It ends with the tokens, or with the slots. -/
theorem argLoop_ends (n : Nat) (s : ArgLoop) :
    (argLoop n s).token = none ∨ (argLoop n s).argCount = s.argCount + n := by
  induction n generalizing s with
  | zero => exact Or.inr rfl
  | succ n ih =>
      cases htoken : s.token with
      | none =>
          rw [argLoop_stop _ htoken]
          exact Or.inl htoken
      | some token =>
          obtain ⟨next, program, save, hstep⟩ := argLoop_token_written n htoken
          rw [hstep]
          rcases ih ⟨next, program, save, s.argCount + 1, _⟩ with hend | hcount
          · exact Or.inl hend
          · refine Or.inr (hcount.trans ?_)
            rw [Nat.add_assoc, Nat.add_comm 1 n]

/-- An accepted string has far fewer words than the vector has slots. -/
theorem argCount_argLoopEnd_le {program : CStr} (hlen : program.bytes.length ≤ maxStrLen) :
    (argLoopEnd program).argCount = (words (ascii " ") program.bytes).length ∧
      2 * (argLoopEnd program).argCount ≤ maxArgs + 1 := by
  have hwords := length_words_le (ascii " ") program.bytes
  simp only [maxStrLen] at hlen
  have hcount := (argLoop_spec maxArgs [] 0 (fun _ => none) program.noNul
    (by simp only [maxArgs]; omega)).count
  rw [Nat.zero_add] at hcount
  refine ⟨hcount, ?_⟩
  rw [argLoopEnd, hcount, maxArgs]
  omega

/-- **The vector does not overflow.**  All that is written of it for an accepted
program string is in its allocation.  The loop ends with the last token, before
its bound. -/
theorem argv_fits (program : CStr) (hlen : program.bytes.length ≤ maxStrLen) :
    (∀ i, (createExecvpArgs program).execvpArgv i ≠ none → i < argvSlots) ∧
    (argLoopEnd program).token = none ∧
    (32 ∈ program.bytes → ArgvFrom (createExecvpArgs program).program
      (createExecvpArgs program).execvpArgv 0 (words (ascii " ") program.bytes)) := by
  obtain ⟨hcount, hle⟩ := argCount_argLoopEnd_le hlen
  have hslots : argvSlots = maxArgs := by decide
  simp only [maxArgs] at hle hslots
  refine ⟨fun i hi => ?_, ?_, fun hspace => ?_⟩
  · by_cases hspace : 32 ∈ program.bytes
    · rw [createExecvpArgs_eq hspace] at hi
      simp only at hi
      rcases eq_or_ne i (argLoopEnd program).argCount with rfl | hne
      · omega
      · rw [Argv.write_ne _ _ hne] at hi
        rcases argLoop_written _ _ hi with hblank | hlt
        · exact absurd rfl hblank
        · change i < (argLoopEnd program).argCount at hlt
          omega
    · rw [createExecvpArgs_eq_of_no_space hspace] at hi
      simp only at hi
      rcases eq_or_ne i 0 with rfl | hne
      · omega
      · exact absurd (Argv.write_ne _ _ hne) hi
  · rcases argLoop_ends maxArgs (ArgLoop.next [] program.bytes 0 fun _ => none) with hend | hfull
    · exact hend
    · have hstart : (ArgLoop.next [] program.bytes 0 fun _ => none).argCount = 0 := rfl
      rw [hstart, Nat.zero_add] at hfull
      change (argLoopEnd program).argCount = maxArgs at hfull
      rw [hfull, maxArgs] at hle
      omega
  · have hroom : (words (ascii " ") program.bytes).length ≤ maxArgs := by
      rw [maxArgs]
      omega
    rw [createExecvpArgs_eq hspace]
    exact (argLoop_spec maxArgs [] 0 (fun _ => none) program.noNul hroom).slots

theorem argv_fits_ls :
    (∀ i, (createExecvpArgs ⟨ascii "ls -l", by decide +kernel⟩).execvpArgv i ≠ none →
      i < argvSlots) ∧
    (argLoopEnd ⟨ascii "ls -l", by decide +kernel⟩).token = none ∧
    (32 ∈ ascii "ls -l" → ArgvFrom (createExecvpArgs ⟨ascii "ls -l", by decide +kernel⟩).program
      (createExecvpArgs ⟨ascii "ls -l", by decide +kernel⟩).execvpArgv 0
      (words (ascii " ") (ascii "ls -l"))) :=
  argv_fits ⟨ascii "ls -l", by decide +kernel⟩ (by decide +kernel)

end EPtracer

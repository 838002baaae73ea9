import EPtracer.Lib.Printf
import EPtracer.Target.Soundness

/-!
# Which identifiers are accepted

`initializeArray` accepts identifiers of up to 100 bytes.  There are two things
that depend on shorter ones.

* `strncpy` terminates the 100 bytes of `name` only if the identifier is shorter
  than that.  The loops of `is_target_program` stop at the bound, and the line
  for the log does not (`stored_readably_iff`).
* The kernel keeps the first 15 bytes of a name.  A longer name is stored and
  compared in full, and no task has it (`named_selection_iff`).
-/

namespace EPtracer

open CText

/-! ## The log -/

/-- The line `initialize_array` logs when it has filled `name`.  It is `none`
where `%s` goes on past the end of it. -/
def startingLine (name : ProgramName) : Option Bytes := do
  let str ← cString name.bytes
  format "[+] Starting tracing program: %s" [.str str]

theorem format_startingLine (str : Bytes) :
    format "[+] Starting tracing program: %s" [.str str] =
      some (ascii "[+] Starting tracing program: " ++ str) := by
  have hformat : format "[+] Starting tracing program: %s" [.str str] =
      some (ascii "[+] Starting tracing program: " ++ (str ++ [])) := by
    rw [ascii_ofList, format_ofList]
    rfl
  rw [hformat, List.append_nil]

/-- A stored identifier is terminated, and all that read it find it there. -/
structure StoredReadably (identifier : CStr) (name : ProgramName) : Prop where
  nul : 0 ∈ name.bytes
  log : startingLine name = some (ascii "[+] Starting tracing program: " ++ identifier.bytes)
  /-- The comparison finds the string that is the identifier equal. -/
  comparison : ∀ s, strEquals maxProgramStringLen s (ptr name.bytes) = 0 ↔
    cut maxProgramStringLen s = identifier.bytes
  /-- The digit loop finds the number in front of the identifier. -/
  number : (parsePid maxProgramStringLen (ptr name.bytes) 0).toNat = numericPrefix identifier

/-- **Storing an identifier.**  An accepted identifier is stored readably exactly
if it is shorter than the buffer. -/
theorem stored_readably_iff (update : Int32) (identifier : CStr) (map : ProgramName)
    (haccept : 0 ≤ (initializeArray update identifier map).1) :
    StoredReadably identifier (initializeArray update identifier map).2 ↔
      identifier.bytes.length < maxProgramStringLen := by
  obtain ⟨hlen, hentry⟩ := initializeArray_accepted haccept
  rw [hentry]
  constructor
  · exact fun h => (zero_mem_strncpy_iff identifier).mp h.nul
  · intro hlt
    refine ⟨(zero_mem_strncpy_iff identifier).mpr hlt, ?_, fun s => ?_, ?_⟩
    · rw [startingLine, cString_strncpy identifier hlt]
      exact format_startingLine identifier.bytes
    · rw [strEquals_eq_zero_iff, cut_strncpy identifier hlen]
    · rw [toNat_parsePid, cut_strncpy identifier hlen]
      rfl

theorem stored_readably_iff_sh :
    StoredReadably ⟨ascii "sh", by decide⟩
        (initializeArray 0 ⟨ascii "sh", by decide⟩ (Buf.zero _)).2 ↔
      (ascii "sh").length < maxProgramStringLen :=
  stored_readably_iff 0 ⟨ascii "sh", by decide⟩ (Buf.zero _) (by decide)

/-- A name of 100 bytes. -/
def fullName : CStr := ⟨List.replicate 100 97, by decide +kernel⟩

theorem fullName_not_stored :
    ¬ ∀ (update : Int32) (identifier : CStr) (map : ProgramName),
      0 ≤ (initializeArray update identifier map).1 →
      StoredReadably identifier (initializeArray update identifier map).2 := by
  intro h
  have haccept : 0 ≤ (initializeArray 0 fullName (Buf.zero _)).1 := by decide +kernel
  have hnul := (h 0 fullName (Buf.zero _) haccept).nul
  rw [(initializeArray_accepted haccept).2, zero_mem_strncpy_iff] at hnul
  exact absurd hnul (by decide +kernel)

/-! ## Names of tasks -/

/-- **Selection by name.**  A task that has its name from an accepted identifier
is selected exactly if the kernel has not cut the name, or the digits in front of
the identifier happen to be the task's PID. -/
theorem named_selection_iff (update : Int32) (identifier : CStr) (map : ProgramName) (t : Task)
    (haccept : 0 ≤ (initializeArray update identifier map).1)
    (htgid : t.tgid ≠ 0)
    (hcomm : t.comm.bytes = identifier.bytes.take (taskCommLen - 1)) :
    targetPid (initializeArray update identifier map).2 t = t.tgid ↔
      identifier.bytes.length ≤ taskCommLen - 1 ∨
        decimalValue (digitPrefix identifier.bytes) % 2 ^ 64 = t.tgid.toNat := by
  obtain ⟨hlen, hentry⟩ := initializeArray_accepted haccept
  have huncut : t.comm.bytes = identifier.bytes ↔
      identifier.bytes.length ≤ taskCommLen - 1 := by
    rw [hcomm]
    refine ⟨fun h => ?_, List.take_of_length_le⟩
    rw [← h]
    exact List.length_take_le _ _
  rw [hentry, targetPid_eq hlen, ← huncut]
  change _ ↔ _ ∨ numericPrefix identifier = t.tgid.toNat
  split
  next hsel => exact iff_of_true rfl hsel
  next hnot => exact iff_of_false htgid.symm hnot

/-- The shell has its name from `sh`. -/
theorem named_selection_iff_sh :
    targetPid (initializeArray 0 ⟨ascii "sh", by decide⟩ (Buf.zero _)).2 shell = shell.tgid ↔
      (ascii "sh").length ≤ taskCommLen - 1 ∨
        decimalValue (digitPrefix (ascii "sh")) % 2 ^ 64 = shell.tgid.toNat :=
  named_selection_iff 0 ⟨ascii "sh", by decide⟩ (Buf.zero _) shell (by decide) (by decide)
    (by decide)

/-- A process that runs `a-long-program-name` is not selected by this name. -/
theorem long_name_not_selected :
    ¬ ∀ (update : Int32) (identifier : CStr) (map : ProgramName) (t : Task),
      0 ≤ (initializeArray update identifier map).1 →
      (∃ c ∈ identifier.bytes, isDigit c = false) → t.tgid ≠ 0 →
      t.comm.bytes = identifier.bytes.take (taskCommLen - 1) →
      targetPid (initializeArray update identifier map).2 t = t.tgid := by
  intro h
  have hselected := h 0 ⟨ascii "a-long-program-name", by decide +kernel⟩ (Buf.zero _)
    ⟨⟨⟨ascii "a-long-program-", by decide +kernel⟩, by decide⟩, 7, 7⟩ (by decide +kernel)
    ⟨97, by decide +kernel, by decide⟩ (by decide) (by decide +kernel)
  exact absurd hselected (by decide +kernel)

end EPtracer

import EPtracer.Spawn.Handover
import EPtracer.Target.Soundness

/-!
# Which task a PID selects

The tracer turns the PID of the task it spawned into a string, and the filter
turns the string back into a number.  The two agree (`selection_complete`): a
PID has at most seven digits, which fit the string, the map and the word of the
filter's loop.

The string is also compared with names, and a task may have any name of fifteen
bytes.  So the spawned task is selected, and with it every task that took the
digits of its PID for a name (`spawned_selection_iff`).
-/

namespace EPtracer

open CText

/-- The largest PID there is. -/
def pidMax : Nat := 4194304

/-! ## Numerals -/

theorem isNumeral_decimal (n : Nat) : IsNumeral (decimal n) := by
  refine ⟨fun hnil => ?_, fun c hc => isDigit_of_mem_decimal hc⟩
  have hval := decimalValue_decimal n
  have hzero := decimalValue_decimal 0
  rw [hnil] at hval
  obtain rfl : n = 0 := hval.symm
  exact absurd hnil (by decide)

theorem IsNumeral.numericPrefix_eq {identifier : CStr} (h : IsNumeral identifier.bytes)
    (hlt : decimalValue identifier.bytes < 2 ^ 64) :
    numericPrefix identifier = decimalValue identifier.bytes := by
  rw [numericPrefix, h.digitPrefix_eq, Nat.mod_eq_of_lt hlt]

/-- The task an identifier means is selected. -/
theorem targetPid_of_meant {identifier : CStr}
    (hlen : identifier.bytes.length ≤ maxProgramStringLen) {t : Task} (h : Meant identifier t) :
    targetPid (strncpy maxProgramStringLen identifier) t = t.tgid := by
  rw [targetPid_eq hlen, if_pos]
  rcases h with hname | ⟨hnum, hval⟩
  · exact .inl hname
  · have hlt := t.tgid.toNat_lt
    exact .inr ((hnum.numericPrefix_eq (by omega)).trans hval)

/-! ## The string of a PID -/

theorem pidToTraceStr_bytes {pid : Int32} {q : Nat} (hpid : pid.toInt = q) (hlt : q < 10 ^ 9) :
    (pidToTraceStr pid).bytes = decimal q := by
  have hlen : (decimal q).length ≤ 9 := length_decimal_le hlt (by decide)
  simp only [pidToTraceStr, hpid, signed, maxPidLen]
  exact List.take_of_length_le hlen

/-- The digit loop reads the PID back from where it was stored. -/
theorem parsePid_pidToTraceStr {pid : Int32} {q : Nat} (hpid : pid.toInt = q) (hlt : q < 10 ^ 9) :
    (parsePid maxProgramStringLen
      (ptr (strncpy maxProgramStringLen (pidToTraceStr pid)).bytes) 0).toNat = q := by
  have hbytes := pidToTraceStr_bytes hpid hlt
  have hlen : (decimal q).length ≤ 9 := length_decimal_le hlt (by decide)
  have hfits : (pidToTraceStr pid).bytes.length ≤ maxProgramStringLen := by
    rw [hbytes, maxProgramStringLen]
    omega
  rw [toNat_parsePid, cut_strncpy _ hfits, hbytes, (isNumeral_decimal q).digitPrefix_eq]
  change decimalValue (decimal q) % 2 ^ 64 = q
  rw [decimalValue_decimal, Nat.mod_eq_of_lt (by omega)]

/-! ## Selection -/

/-- **Selection is complete.**  A task is selected by each accepted identifier
that is its name or has its PID for a value, and the string the tracer makes of
the PID is one of them. -/
theorem selection_complete (t : Task) (hmax : t.tgid.toNat ≤ pidMax) :
    (∀ (update : Int32) (identifier : CStr) (map : ProgramName),
      0 ≤ (initializeArray update identifier map).1 →
      (t.comm.bytes = identifier.bytes ∨
        IsNumeral identifier.bytes ∧ decimalValue identifier.bytes = t.tgid.toNat) →
      targetPid (initializeArray update identifier map).2 t = t.tgid) ∧
    ∀ (pid : Int32) (map : ProgramName), pid.toInt = t.tgid.toNat →
      ∃ str : CStr, snprintf maxPidLen "%d" [.int pid] = some (str.bytes ++ [0]) ∧
        initializeArray 0 str map = (0, strncpy maxProgramStringLen str) ∧
        (parsePid maxProgramStringLen (ptr (strncpy maxProgramStringLen str).bytes) 0).toNat =
          t.tgid.toNat ∧
        targetPid (strncpy maxProgramStringLen str) t = t.tgid := by
  constructor
  · intro update identifier map haccept hmeant
    obtain ⟨hlen, hentry⟩ := initializeArray_accepted haccept
    rw [hentry]
    exact targetPid_of_meant hlen hmeant
  · intro pid map hpid
    have hlt : t.tgid.toNat < 10 ^ 9 := by
      simp only [pidMax] at hmax
      omega
    have hbytes := pidToTraceStr_bytes hpid hlt
    have hstore := initializeArray_pidToTraceStr pid map
    have haccept : 0 ≤ (initializeArray 0 (pidToTraceStr pid) map).1 := by
      rw [hstore]
      exact Int32.le_refl 0
    have hlen := (initializeArray_accepted haccept).1
    refine ⟨pidToTraceStr pid, snprintf_pidToTraceStr pid, hstore,
      parsePid_pidToTraceStr hpid hlt, targetPid_of_meant hlen (.inr ?_)⟩
    rw [hbytes]
    exact ⟨isNumeral_decimal _, decimalValue_decimal _⟩

/-- The shell, which has PID 7, is selected by a numeral with leading zeros. -/
theorem selection_complete_shell :
    targetPid (initializeArray 0 ⟨ascii "007", by decide⟩ (Buf.zero _)).2 shell = shell.tgid ∧
    ∃ str : CStr, snprintf maxPidLen "%d" [.int 7] = some (str.bytes ++ [0]) ∧
      initializeArray 0 str (Buf.zero _) = (0, strncpy maxProgramStringLen str) ∧
      (parsePid maxProgramStringLen (ptr (strncpy maxProgramStringLen str).bytes) 0).toNat = 7 ∧
      targetPid (strncpy maxProgramStringLen str) shell = shell.tgid :=
  have hshell := selection_complete shell (by decide)
  ⟨hshell.1 0 ⟨ascii "007", by decide⟩ (Buf.zero _) (by decide)
    (.inr ⟨⟨by decide, by decide +kernel⟩, by decide +kernel⟩), hshell.2 7 (Buf.zero _) rfl⟩

/-- **A spawned task and its namesakes.**  The stored PID selects the task that
has it, and each task that has its digits for a name. -/
theorem spawned_selection_iff (update pid : Int32) (map : ProgramName) (t : Task)
    (hpos : 1 ≤ pid.toInt) (hmax : pid.toInt ≤ pidMax)
    (haccept : 0 ≤ (initializeArray update (pidToTraceStr pid) map).1) :
    targetPid (initializeArray update (pidToTraceStr pid) map).2 t ≠ 0 ↔
      t.tgid ≠ 0 ∧ (t.tgid.toNat = pid.toInt ∨ t.comm.bytes = decimal pid.toInt.toNat) := by
  obtain ⟨hlen, hentry⟩ := initializeArray_accepted haccept
  obtain ⟨q, hq⟩ : ∃ q : Nat, pid.toInt = q := ⟨pid.toInt.toNat, by omega⟩
  have hlt : q < 10 ^ 9 := by
    simp only [pidMax] at hmax
    omega
  have hbytes := pidToTraceStr_bytes hq hlt
  have hval : numericPrefix (pidToTraceStr pid) = q := by
    have hnum : IsNumeral (pidToTraceStr pid).bytes := by
      rw [hbytes]
      exact isNumeral_decimal q
    have hvalue : decimalValue (pidToTraceStr pid).bytes = q := by
      rw [hbytes, decimalValue_decimal]
    rw [hnum.numericPrefix_eq (by omega), hvalue]
  have hpid : t.tgid.toNat = pid.toInt ↔ q = t.tgid.toNat := by
    rw [hq]
    omega
  rw [hentry, targetPid_eq hlen, hbytes, hval, hpid, hq, Int.toNat_natCast]
  split
  next hsel => exact ⟨fun hne => ⟨hne, hsel.symm⟩, fun h => h.1⟩
  next hnot => exact iff_of_false (not_not_intro rfl) fun h => hnot h.2.symm

theorem spawned_selection_iff_shell :
    targetPid (initializeArray 0 (pidToTraceStr 7) (Buf.zero _)).2 shell ≠ 0 ↔
      shell.tgid ≠ 0 ∧
        (shell.tgid.toNat = (7 : Int32).toInt ∨
          shell.comm.bytes = decimal (7 : Int32).toInt.toNat) :=
  spawned_selection_iff 0 7 (Buf.zero _) shell (by decide) (by decide) (by decide)

/-- A task with the name `1234` is selected with the task that has the PID. -/
theorem namesake_selected :
    ¬ ∀ (update pid : Int32) (map : ProgramName) (t : Task), 1 ≤ pid.toInt →
      pid.toInt ≤ pidMax → 0 ≤ (initializeArray update (pidToTraceStr pid) map).1 →
      targetPid (initializeArray update (pidToTraceStr pid) map).2 t ≠ 0 →
      t.tgid.toNat = pid.toInt := by
  intro h
  have htgid := h 0 1234 (Buf.zero _) ⟨⟨⟨ascii "1234", by decide⟩, by decide⟩, 500, 500⟩
    (by decide) (by decide) (by decide) (by decide +kernel)
  exact absurd htgid (by decide)

end EPtracer

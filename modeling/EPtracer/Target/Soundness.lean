import EPtracer.Target.Selection

/-!
# When a selected task is the one meant

An identifier is meant to be a task's name or its PID.  `Meant` says that a
task is the one an identifier means.  `isTargetProgram` reads the digits in
front of an identifier and ignores what follows them, and it accumulates them
in a 64-bit word.  So `7zip` selects the task with PID 7, and a numeral of
2^64 + 1 selects PID 1.  `targetPid_sound_iff` gives the exact condition under
which a selection can be trusted.
-/

namespace EPtracer

open CText

/-- The whole string is a decimal numeral. -/
def IsNumeral (b : Bytes) : Prop := b ≠ [] ∧ ∀ c ∈ b, isDigit c = true

/-- Task `t` is the one the identifier means. -/
def Meant (identifier : CStr) (t : Task) : Prop :=
  t.comm.bytes = identifier.bytes ∨
    IsNumeral identifier.bytes ∧ decimalValue identifier.bytes = t.tgid.toNat

/-- A nonzero answer is the task's thread group, and the task is the one meant. -/
def SelectsSoundly (identifier : CStr) (entry : ProgramName) (t : Task) : Prop :=
  targetPid entry t ≠ 0 → targetPid entry t = t.tgid ∧ Meant identifier t

theorem IsNumeral.digitPrefix_eq {b : Bytes} (h : IsNumeral b) : digitPrefix b = b :=
  (digitPrefix_eq_self_iff b).mpr h.2

/-- A selection is sound unless the number in front of the identifier, reduced
modulo 2^64, hits a task the identifier does not mean. -/
theorem targetPid_sound_iff (update : Int32) (identifier : CStr) (map : ProgramName) (t : Task)
    (haccept : 0 ≤ (initializeArray update identifier map).1) :
    SelectsSoundly identifier (initializeArray update identifier map).2 t ↔
      t.comm.bytes = identifier.bytes ∨ t.tgid = 0 ∨
      decimalValue (digitPrefix identifier.bytes) % 2 ^ 64 ≠ t.tgid.toNat ∨
      (IsNumeral identifier.bytes ∧ decimalValue identifier.bytes < 2 ^ 64) := by
  obtain ⟨hlen, hentry⟩ := initializeArray_accepted haccept
  rw [hentry]
  change _ ↔ _ ∨ _ ∨ numericPrefix identifier ≠ t.tgid.toNat ∨ _
  simp only [SelectsSoundly, targetPid_eq hlen t]
  by_cases hname : t.comm.bytes = identifier.bytes
  · simp [Meant, hname]
  by_cases hzero : t.tgid = 0
  · simp [hzero]
  by_cases hval : numericPrefix identifier = t.tgid.toNat
  · simp only [hval, or_true, if_true, hzero, ne_eq, not_true_eq_false, not_false_eq_true,
      true_and, true_imp_iff, Meant, hname, false_or]
    have htgid := t.tgid.toNat_lt
    constructor
    · rintro ⟨hnum, heq⟩
      exact ⟨hnum, by omega⟩
    · rintro ⟨hnum, hlt⟩
      rw [numericPrefix, hnum.digitPrefix_eq, Nat.mod_eq_of_lt hlt] at hval
      exact ⟨hnum, hval⟩
  · simp [hname, hval]

theorem targetPid_sound_iff_pid :
    SelectsSoundly ⟨ascii "1234", by decide⟩
      (initializeArray 0 ⟨ascii "1234", by decide⟩ (Buf.zero _)).2
      ⟨⟨⟨ascii "sh", by decide⟩, by decide⟩, 1234, 1234⟩ :=
  (targetPid_sound_iff 0 ⟨ascii "1234", by decide⟩ (Buf.zero _)
    ⟨⟨⟨ascii "sh", by decide⟩, by decide⟩, 1234, 1234⟩ (by decide)).mpr
    (.inr (.inr (.inr ⟨⟨by decide, by decide +kernel⟩, by decide +kernel⟩)))

/-- The identifier `7zip` selects a shell with PID 7. -/
theorem targetPid_unsound :
    ¬ ∀ (update : Int32) (identifier : CStr) (map : ProgramName) (t : Task),
      0 ≤ (initializeArray update identifier map).1 →
      SelectsSoundly identifier (initializeArray update identifier map).2 t := by
  intro h
  have hsound := h 0 ⟨ascii "7zip", by decide⟩ (Buf.zero _)
    ⟨⟨⟨ascii "sh", by decide⟩, by decide⟩, 7, 7⟩ (by decide)
  rcases (hsound (by decide)).2 with hname | ⟨⟨-, hdigits⟩, -⟩
  · exact absurd hname (by decide)
  · exact absurd (hdigits 122 (by decide)) (by decide)

end EPtracer

import EPtracer.Syscall.Coverage

/-!
# Commands of the binder

The handler prints every event of an `ioctl` as `binder_ioctl`.  Whether the
command is one of the binder's is left to the program that submits the event,
and it looks only in a build for Android.  It compares the register of the
argument with the constants, all 64 bits of it.  The command of an `ioctl` is an
`unsigned int`, the low half, and the kernel does not look at the other half.

`binderLine_iff` says which calls get the line, and `binder_labelled_iff` when
they are the ones they should be.
-/

namespace EPtracer

open CText RingBuffer

variable {b : Build} {entry : ProgramName} {ctx : SysEnter}

/-- The command that the kernel takes from the argument is one of the binder's. -/
def BinderCommand (arg : UInt64) : Prop :=
  arg.toUInt32 = binderWriteRead.toUInt32 ∨ arg.toUInt32 = binderSetContextMgr.toUInt32

instance (arg : UInt64) : Decidable (BinderCommand arg) := inferInstanceAs (Decidable (_ ∨ _))

/-- An execution submits an event whose line says `binder_ioctl`. -/
def BinderLine (l : List (Act SyscallEvent Effect)) : Prop :=
  ∃ ev ∈ submissions l, ∀ microseconds, ∃ line : Line,
    line.microseconds = microseconds ∧ line.name = "binder_ioctl" ∧
      syscallEventHandler ev microseconds = some (line.text ++ [10])

/-! ## Registers -/

/-- A register holds a 32-bit value if its low half does and its high half is
clear. -/
theorem eq_iff_low {w c : UInt64} (hc : c.toNat < 2 ^ 32) :
    w = c ↔ w.toUInt32 = c.toUInt32 ∧ w.toNat < 2 ^ 32 := by
  constructor
  · rintro rfl
    exact ⟨rfl, hc⟩
  · rintro ⟨hlow, hw⟩
    have hnat := congrArg UInt32.toNat hlow
    rw [UInt64.toNat_toUInt32, UInt64.toNat_toUInt32, Nat.mod_eq_of_lt hw,
      Nat.mod_eq_of_lt hc] at hnat
    exact UInt64.toNat_inj.mp hnat

theorem binder_constant_iff (arg : UInt64) :
    arg = binderWriteRead ∨ arg = binderSetContextMgr ↔ BinderCommand arg ∧ arg.toNat < 2 ^ 32 := by
  rw [eq_iff_low (c := binderWriteRead) (by decide),
    eq_iff_low (c := binderSetContextMgr) (by decide), BinderCommand, or_and_right]

theorem passedOver_iff (hcase : b.case ctx.id = some .nrIoctl) :
    PassedOver b ctx ↔
      b.isAndroid = true ∧ ¬ (BinderCommand (ctx.args 1) ∧ (ctx.args 1).toNat < 2 ^ 32) := by
  rw [PassedOver, ← binder_constant_iff, not_or]
  exact and_congr_right fun _ => and_iff_right hcase

/-! ## Lines -/

/-- With room in the buffer every `ioctl` that is not passed over gets the
line. -/
theorem binderLine_iff (hcase : b.case ctx.id = some .nrIoctl) (hsel : Selected entry ctx)
    {l : List (Act SyscallEvent Effect)} (he : (sysEnterMultiplexer b entry ctx).Exec l .ret)
    (hroom : Act.reserve none ∉ l) : BinderLine l ↔ ¬ PassedOver b ctx := by
  constructor
  · rintro ⟨ev, hmem, -⟩ hpass
    rw [submissions_of_not_reserves (fun nr hres => hres.2.2 hpass) he] at hmem
    cases hmem
  · intro hpass
    have hres : Reserves b ctx .nrIoctl := ⟨hcase, by decide, hpass⟩
    rw [sysEnterMultiplexer_of_reserves hsel hres] at he
    obtain ⟨old, hsub⟩ := Prog.produce_submissions (afterSubmit_quiet .nrIoctl) he hroom
    obtain ⟨ev, hfill⟩ : ∃ ev, fill (tracedPid entry ctx) ctx .nrIoctl old = some ev := ⟨_, rfl⟩
    obtain ⟨ty, hty, hcode, hlabels⟩ := fill_labels hfill
    cases hty
    refine ⟨ev, by rw [hsub, hfill]; exact List.mem_singleton_self ev, fun microseconds => ?_⟩
    exact ⟨⟨ev.pid, "binder_ioctl", callLabels ctx .ioctl, microseconds⟩, rfl, rfl,
      syscallEventHandler_eq (SyscallEventType.ofCode_of_eq hcode) hlabels microseconds⟩

/-- **The binder's line.**  A traced `ioctl` gets it for the commands of the
binder, and only for them, in two cases: on Android, unless the command is the
binder's and the high half of the register is not clear, and elsewhere, if the
command is the binder's. -/
theorem binder_labelled_iff (b : Build) (entry : ProgramName) (ctx : SysEnter)
    (l : List (Act SyscallEvent Effect)) (hcase : b.case ctx.id = some .nrIoctl)
    (hsel : Selected entry ctx) (he : (sysEnterMultiplexer b entry ctx).Exec l .ret)
    (hroom : Act.reserve none ∉ l) :
    (BinderLine l ↔ BinderCommand (ctx.args 1)) ↔
      (b.isAndroid = true ∧ (BinderCommand (ctx.args 1) → (ctx.args 1).toNat < 2 ^ 32)) ∨
      (b.isAndroid = false ∧ BinderCommand (ctx.args 1)) := by
  rw [binderLine_iff hcase hsel he hroom, passedOver_iff hcase]
  cases b.isAndroid with
  | true => simp
  | false => simp

/-- The shell makes an `ioctl`, with a command in the register. -/
def ioctlCall (arg : UInt64) : SysEnter := shellCall 16 fun i => if i = 1 then arg else 0

/-- What the program does for it on x86-64. -/
def ioctlActs (arg : UInt64) : List (Act SyscallEvent Effect) :=
  [.reserve (some (0, blankEvent)),
    .submit 0 { blankEvent with
      type := SyscallEventType.ioctl.code
      pid := tracedPid shellName (ioctlCall arg)
      args := copyArgs [0, 1, 2] (ioctlCall arg).args blankEvent.args }]

theorem ioctlCall_case (arg : UInt64) : buildX86.case (ioctlCall arg).id = some .nrIoctl := by
  have hcase : buildX86.case 16 = some .nrIoctl := by decide
  exact hcase

theorem ioctlCall_selected (arg : UInt64) : Selected shellName (ioctlCall arg) := by
  have hsel : targetPid shellName shell ≠ 0 := by decide
  exact hsel

theorem ioctlCall_exec (arg : UInt64) :
    (sysEnterMultiplexer buildX86 shellName (ioctlCall arg)).Exec (ioctlActs arg) .ret := by
  have hres := reserves_of_case rfl (ioctlCall_case arg) (by decide)
  rw [sysEnterMultiplexer_of_reserves (ioctlCall_selected arg) hres]
  exact .step (.reserve (some (0, blankEvent))) (.step .submit .refl)

theorem binder_labelled_iff_write_read :
    (BinderLine (ioctlActs binderWriteRead) ↔ BinderCommand binderWriteRead) ↔
      (buildX86.isAndroid = true ∧
        (BinderCommand binderWriteRead → binderWriteRead.toNat < 2 ^ 32)) ∨
      (buildX86.isAndroid = false ∧ BinderCommand binderWriteRead) :=
  binder_labelled_iff buildX86 shellName (ioctlCall binderWriteRead) _
    (ioctlCall_case _) (ioctlCall_selected _) (ioctlCall_exec _) (by simp [ioctlActs])

/-- Android on x86-64. -/
def buildAndroid : Build := { buildX86 with isAndroid := true }

theorem buildAndroid_case (arg : UInt64) :
    buildAndroid.case (ioctlCall arg).id = some .nrIoctl := ioctlCall_case arg

/-- Elsewhere a terminal gets the line of the binder, and on Android the binder
gets none when its command was passed as an `int`. -/
theorem binder_mislabelled :
    (¬ ∀ (b : Build) (entry : ProgramName) (ctx : SysEnter) (l : List (Act SyscallEvent Effect)),
      b.isAndroid = false → b.case ctx.id = some .nrIoctl → Selected entry ctx →
      (sysEnterMultiplexer b entry ctx).Exec l .ret → Act.reserve none ∉ l →
      (BinderLine l ↔ BinderCommand (ctx.args 1))) ∧
    (¬ ∀ (b : Build) (entry : ProgramName) (ctx : SysEnter) (l : List (Act SyscallEvent Effect)),
      b.isAndroid = true → b.case ctx.id = some .nrIoctl → Selected entry ctx →
      (sysEnterMultiplexer b entry ctx).Exec l .ret → Act.reserve none ∉ l →
      (BinderLine l ↔ BinderCommand (ctx.args 1))) := by
  constructor
  · intro h
    -- the command that reads the settings of a terminal
    have hline := h buildX86 shellName (ioctlCall 0x5401) _ rfl (ioctlCall_case _)
      (ioctlCall_selected _) (ioctlCall_exec _) (by simp [ioctlActs])
    rw [binderLine_iff (ioctlCall_case _) (ioctlCall_selected _) (ioctlCall_exec _)
      (by simp [ioctlActs])] at hline
    have hcommand : BinderCommand 0x5401 := hline.mp fun hpass => Bool.false_ne_true hpass.1
    exact absurd hcommand (by decide)
  · intro h
    have hpass : PassedOver buildAndroid (ioctlCall 0xffffffffc0306201) :=
      ⟨rfl, buildAndroid_case _, by decide, by decide⟩
    have hexec : (sysEnterMultiplexer buildAndroid shellName (ioctlCall 0xffffffffc0306201)).Exec
        [] .ret := by
      rw [sysEnterMultiplexer_of_case (ioctlCall_selected _) (buildAndroid_case _)]
      exact .refl
    have hline := h buildAndroid shellName (ioctlCall 0xffffffffc0306201) [] rfl
      (buildAndroid_case _) (ioctlCall_selected _) hexec (by simp)
    rw [binderLine_iff (buildAndroid_case _) (ioctlCall_selected _) hexec (by simp)] at hline
    have hcommand : BinderCommand 0xffffffffc0306201 := by decide
    exact hline.mpr hcommand hpass

end EPtracer

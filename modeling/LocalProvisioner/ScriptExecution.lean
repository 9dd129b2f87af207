import LocalProvisioner.CleanerScripts
import LocalProvisioner.Deleter
import LocalProvisioner.PipedProcess

namespace LocalProvisioner

/-!
# Running a cleaner script

`execScript` starts the block cleaner command with the device in its
environment, reads both of its output streams line by line, waits for the two
readers, and only then for the command.  The readers are scanners of `bufio`,
which give up at a line of 64 KiB.

Whether a cleaning is recorded, and as what, is decided here: by the status of
the script if what the scanners leave unread fits into the pipes.  If it does
not, the script waits for somebody to read its output, `execScript` waits for
the script, and the entry of the volume stays in the running state.
-/

open Interleaving
open PipedProcess (Process Byte Fits Completed)
open ShellScript
open CleanerScripts

/-- The streams of a command that `execScript` reads. -/
inductive OutputStream where
  | stdout
  | stderr
  deriving Repr, DecidableEq

instance : Fintype OutputStream :=
  ⟨{.stdout, .stderr}, by rintro (_ | _) <;> simp⟩

/-- `bufio.MaxScanTokenSize`. -/
def scanLimit : Nat :=
  65536

/-- What a pipe of the operating system holds. -/
def pipeCapacity : Nat :=
  65536

/-- `cmd.Wait` on the status of the command. -/
def waitResult (status : Nat) : Except String Unit :=
  if status = 0 then
    .ok ()
  else
    .error ("exit status " ++ toString status)

/-- The steps of `execScript` and of the command that it has started. -/
def execStep (command : Process OutputStream) :
    PipedProcess.State OutputStream →
    PipedProcess.Action OutputStream →
    Option (PipedProcess.State OutputStream) :=
  PipedProcess.step pipeCapacity scanLimit command.status

/-- `asyncCleanPV` has recorded how the work ended. -/
def Recorded
    (work : CleanerWork)
    (state : PipedProcess.State OutputStream)
    (outcome : CleanupState) : Prop :=
  ∃ status,
    state.returned = some status ∧
      outcome = cleaningOutcome work (waitResult status)

/-- The shell that `exec.Command` starts a script in. -/
def scriptShell
    {Host : Type}
    (exe : String)
    (exeArgs : List String)
    (environ : String → Option String)
    (blkdevPath : String)
    (host : Host) :
    Shell Host where
  name := exe
  settings := fun name =>
    if name = localPVEnv then some blkdevPath else environ name
  arguments := exeArgs
  host := host
  performed := []
  printed := []

/-- Block cleaners are recorded by the status of their command. -/
theorem cleaningOutcome_block
    {work : CleanerWork}
    (isBlock : work.volMode = .block)
    (guarded : hasPrefix work.mountPath work.config.mountDir = true)
    (status : Nat) :
    cleaningOutcome work (waitResult status) =
      if status = 0 then .succeeded else .failed := by
  have cleans :
      cleanPV work =
        .ok (.execScript work.config.blockCleanerCommand
          { name := localPVEnv, value := work.mountPath }) := by
    simp [cleanPV, guarded, isBlock]
  by_cases ok : status = 0
  · simp [cleaningOutcome, cleans, waitResult, ok]
  · simp [cleaningOutcome, cleans, waitResult, ok]

/-- Short lines never get in the way of a command. -/
theorem fits_of_shortLines
    {command : Process OutputStream}
    (short :
      ∀ stream,
        ∀ line ∈ (PipedProcess.pendingOf command.output stream).splitOnP
          (· == PipedProcess.newline),
          line.length < scanLimit) :
    Fits pipeCapacity scanLimit command := by
  intro stream
  rw [PipedProcess.unread_eq_nil (short stream) (by simp)]
  exact Nat.zero_le _

/-- A stream of 128 KiB and more without a line break does. -/
theorem not_fits_of_endlessLine
    {command : Process OutputStream}
    {stream : OutputStream}
    (endless :
      ∀ byte ∈ PipedProcess.pendingOf command.output stream,
        byte ≠ PipedProcess.newline)
    (long :
      scanLimit + pipeCapacity <
        (PipedProcess.pendingOf command.output stream).length) :
    ¬ Fits pipeCapacity scanLimit command := by
  intro fits
  have left := fits stream
  rw [PipedProcess.unread_of_endless (by decide) endless,
    List.length_drop, List.length_nil] at left
  omega

/--
The cleaning of a block volume by a script of the image.  If the output that
the scanners leave unread fits into the pipes, every run of `execScript` comes
to an end, and the volume is recorded as cleaned exactly if the script was
asked for its usage, or found a block device and did every step of its
cleaning.  Otherwise no run ever records anything.
-/
theorem blockCleaning_recorded
    {Host : Type}
    {work : CleanerWork}
    {exe : String}
    {exeArgs : List String}
    (cleaner : BlockCleaner)
    (surroundings : Surroundings Host)
    (environ : String → Option String)
    (host : Host)
    (isBlock : work.volMode = .block)
    (guarded : hasPrefix work.mountPath work.config.mountDir = true)
    (isCommand : work.config.blockCleanerCommand = exe :: exeArgs) :
    let shell := scriptShell exe exeArgs environ work.mountPath host
    cleanPV work =
        .ok (.execScript (exe :: exeArgs)
          { name := localPVEnv, value := work.mountPath }) ∧
      cleaner.script.Ends surroundings shell fun status later =>
        ∀ output : List (OutputStream × Byte),
          let command : Process OutputStream := ⟨output, status⟩
          (Fits pipeCapacity scanLimit command →
            Inevitable (execStep command)
              (fun state =>
                Completed scanLimit command state ∧
                  ∃ outcome,
                    Recorded work state outcome ∧
                      (outcome = .succeeded ↔
                        HelpAsked shell ∨
                          Ready surroundings shell ∧
                            ∃ steps,
                              cleaner.steps exeArgs = some steps ∧
                                Performs (Issues cleaner surroundings shell)
                                  steps later.performed true))
              (PipedProcess.started command)) ∧
          (¬ Fits pipeCapacity scanLimit command →
            ∀ state,
              Reachable (execStep command) (fun _ _ => True)
                (fun first => first = PipedProcess.started command) state →
              ∀ outcome, ¬ Recorded work state outcome) := by
  intro shell
  refine ⟨by simp [cleanPV, guarded, isBlock, isCommand], ?_⟩
  refine (ends_succeeds_iff cleaner surroundings shell).mono ?_
  rintro status later ⟨executions, performed, succeeds_iff⟩ output
  obtain rfl : later.performed = executions := performed
  refine ⟨fun fits => ?_, fun overflows state reachable outcome recorded => ?_⟩
  · refine (PipedProcess.inevitable_of_fits (by decide) fits).mono ?_
    intro state completed
    refine ⟨completed, _, ⟨status, completed.1, rfl⟩, ?_⟩
    refine Iff.trans ?_ succeeds_iff
    rw [cleaningOutcome_block isBlock guarded]
    by_cases ok : status = 0 <;> simp [ok]
  · obtain ⟨result, isReturned, _⟩ := recorded
    have nothing := PipedProcess.not_returned_of_not_fits overflows reachable
    rw [nothing.2] at isReturned
    cases isReturned

/-- A released block volume that `shred.sh` cleans. -/
def sampleBlockWork : CleanerWork where
  pv :=
    { samplePV with
      localSource := some { path := "/mnt/disks/a", fsType := none }
      volumeMode := some .block
      phase := .released }
  volMode := .block
  mountPath := "/mnt/disks/a"
  config :=
    { hostDir := "/mnt/disks"
      mountDir := "/mnt/disks"
      blockCleanerCommand := ["/scripts/shred.sh", "2"]
      volumeMode := "Block"
      accessMode := "ReadWriteOnce"
      fsType := ""
      namePattern := "*"
      selector := [] }

/-- Dots on the standard error, without a line break. -/
def sampleDots (count : Nat) : List (OutputStream × Byte) :=
  List.replicate count (.stderr, 46)

/-- The scanner of the standard error leaves what its buffer does not hold. -/
theorem unread_sampleDots (count : Nat) (stream : OutputStream) :
    (PipedProcess.unread scanLimit []
        (PipedProcess.pendingOf (sampleDots count) stream)).length =
      if stream = .stderr then count - scanLimit else 0 := by
  have pending :
      PipedProcess.pendingOf (sampleDots count) stream =
        if stream = .stderr then List.replicate count 46 else [] := by
    cases stream <;> simp [PipedProcess.pendingOf, sampleDots]
  have endless :
      ∀ byte ∈ PipedProcess.pendingOf (sampleDots count) stream,
        byte ≠ PipedProcess.newline := by
    intro byte member
    rw [pending] at member
    split at member
    · rw [List.eq_of_mem_replicate member]
      decide
    · cases member
  rw [PipedProcess.unread_of_endless (by decide) endless, pending]
  split <;> simp

/--
If the scanner leaves 100 bytes unread, the volume is recorded in the end; if
it leaves one byte more than a pipe holds, it never is.
-/
theorem blockCleaning_recorded_of_sampleBlockWork :
    BlockCleaner.shred.script.Ends sampleHost
      (scriptShell "/scripts/shred.sh" ["2"] (fun _ => none) "/mnt/disks/a" ())
      fun status _ =>
        Inevitable (execStep ⟨sampleDots (scanLimit + 100), status⟩)
            (fun state => ∃ outcome, Recorded sampleBlockWork state outcome)
            (PipedProcess.started ⟨sampleDots (scanLimit + 100), status⟩) ∧
          ∀ state,
            Reachable
                (execStep
                  ⟨sampleDots (scanLimit + pipeCapacity + 1), status⟩)
                (fun _ _ => True)
                (fun first =>
                  first =
                    PipedProcess.started
                      ⟨sampleDots (scanLimit + pipeCapacity + 1), status⟩)
                state →
              ∀ outcome, ¬ Recorded sampleBlockWork state outcome := by
  obtain ⟨_, ends⟩ :=
    @blockCleaning_recorded _ sampleBlockWork "/scripts/shred.sh" ["2"]
      .shred sampleHost (fun _ => none) () rfl (by decide) rfl
  refine ends.mono ?_
  intro status later recorded
  constructor
  · refine ((recorded (sampleDots (scanLimit + 100))).1 ?_).mono ?_
    · intro stream
      refine (unread_sampleDots _ stream).trans_le ?_
      split <;> simp [scanLimit, pipeCapacity]
    · rintro state ⟨_, outcome, isRecorded, _⟩
      exact ⟨outcome, isRecorded⟩
  · refine (recorded (sampleDots (scanLimit + pipeCapacity + 1))).2 ?_
    intro fits
    have left := (unread_sampleDots _ .stderr).symm.trans_le (fits .stderr)
    simp [scanLimit, pipeCapacity] at left

end LocalProvisioner

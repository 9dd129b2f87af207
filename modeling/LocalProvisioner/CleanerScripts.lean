import LocalProvisioner.ShellScript
import LocalProvisioner.Objects

namespace LocalProvisioner

/-!
# The cleaner scripts

The scripts of `deployment/docker/scripts` that clean a block device, with the
functions of `common.sh` that they use.  Reading `common.sh` itself is assumed
to succeed: it lies beside the scripts in the image.

A cleaner marks a volume as cleaned when its script ends with status 0.  The
results below say what the scripts have done by then, whatever the commands
that they call do, and which devices these commands were given.
-/

open ShellScript

namespace CleanerScripts

/-- `LOCAL_PV_BLKDEVICE`. -/
def device : Parameter :=
  .named localPVEnv

/-- A word without parameters. -/
def plain (text : String) : Word :=
  [.text text]

/-- `errorExit` of `common.sh`. -/
def errorExit (message : Word) : Statement :=
  .call (.both (.echo [[.bare .all]]) (.exit 1)) [message]

/-- `validateBlockDevice` of `common.sh`. -/
def validateBlockDevice : Statement :=
  .call
    (.both
      (.branch (.unset localPVEnv)
        (errorExit
          (plain "Environment variable LOCAL_PV_BLKDEVICE has not been set")))
      (.branch (.negated (.blockDevice [.quoted device]))
        (errorExit
          [.quoted device, .text " is not a block device."])))
    []

/-- The branch of every script that prints its usage. -/
def help (usage : List Word) : Statement :=
  .branch (.equal [.quoted (.positional 1)] (plain "-h"))
    (usage.foldr (fun line later => .both (.echo [line]) later) (.exit 0))

/-- A number of rounds that an argument may replace. -/
def readIterations (default : String) : Statement :=
  .both (.assign "iterations" (plain default))
    (.branch .given
      (.assign "iterations" [.bare (.positional 1)]))

/-- The check that the number of rounds is a number. -/
def checkIterations : Statement :=
  .branch (.negated (.numeric [.bare (.named "iterations")]))
    (errorExit
      [.text "Number of iterations is not a number ",
        .quoted (.named "iterations")])

def blkdiscardWords : List Word :=
  [plain "blkdiscard", plain "-v", [.bare device]]

def mkfsWords : List Word :=
  [plain "ionice", plain "-c", plain "3", plain "mkfs", plain "-F",
    [.bare device]]

def wipefsWords : List Word :=
  [plain "ionice", plain "-c", plain "3", plain "wipefs", plain "-a",
    [.bare device]]

def shredWords : List Word :=
  [plain "ionice", plain "-c", plain "3", plain "shred", plain "-vzf",
    plain "-n", [.bare (.named "iterations")], [.bare device]]

def ddWords : List Word :=
  [plain "ionice", plain "-c", plain "3", plain "dd", plain "if=/dev/zero",
    [.text "of=", .bare device], plain "bs=8096"]

def teeWords : List Word :=
  [plain "tee", plain "/dev/stderr"]

/-- `blkdiscard.sh`. -/
def blkdiscard : Script where
  errexit := true
  body :=
    .block
      (help [[.text "Usage: ", .quoted .scriptName, .text " "],
        plain ("Invokes blkdiscard on the block device specified by " ++
          "environment variable LOCAL_PV_BLKDEVICE")])
      [validateBlockDevice,
        .echo [plain "Calling blkdiscard"],
        .run [blkdiscardWords]]

/-- `quick_reset.sh`. -/
def quickReset : Script where
  errexit := true
  body :=
    .block
      (help [[.text "Usage: ", .quoted .scriptName, .text " "],
        plain ("Does a quick overwrite of current file system and calls " ++
          "wipefs to remove any signatures."),
        plain ("The block device must be specified by the environment " ++
          "variable LOCAL_PV_BLKDEVICE")])
      [validateBlockDevice,
        .echo [plain "Calling mkfs"],
        .run [mkfsWords],
        .echo [plain "Calling wipefs"],
        .run [wipefsWords],
        .echo [plain "Quick reset completed"]]

/-- `shred.sh`. -/
def shred : Script where
  errexit := true
  body :=
    .block
      (help [[.text "Usage: ", .quoted .scriptName, .text " [ITERATIONS]"],
        plain ("Invokes shred on the block device specified by " ++
          "environment variable LOCAL_PV_BLKDEVICE"),
        plain ("ITERATIONS represents number of times to repeat the " ++
          "operation (optional). Default is 3")])
      [validateBlockDevice,
        readIterations "3",
        checkIterations,
        .run [shredWords]]

/-- What `dd` prints when it has come to the end of a device. -/
def fullMessage : String :=
  "No space left on device"

/-- `doZero` of `dd_zero.sh`. -/
def doZero : Statement :=
  .call
    (.both
      (.capture "cmdOut" [ddWords, teeWords])
      (.branch
        (.negated
          (.contains [.bare (.named "cmdOut")] fullMessage))
        (errorExit (plain "Failed to find expected output from dd"))))
    []

/-- `dd_zero.sh`, the one script without `-e`. -/
def ddZero : Script where
  errexit := false
  body :=
    .block
      (help [[.text "Usage: ", .quoted .scriptName, .text " [ITERATIONS]"],
        plain ("Writes zeros into block device specified by environment " ++
          "variable LOCAL_PV_BLKDEVICE"),
        plain ("ITERATIONS represents number of times to repeat the " ++
          "operation (optional). Default is 1")])
      [readIterations "1",
        checkIterations,
        validateBlockDevice,
        .assign "counter" (plain "0"),
        .loop
          (.less [.quoted (.named "counter")] [.quoted (.named "iterations")])
          (.both (.echo [plain "Running new iteration of dd"])
            (.both doZero (.increment "counter")))]

/-! ## The common parts -/

section CommonParts

variable {Host : Type}
variable {surroundings : Surroundings Host}
variable {errexit : Bool}
variable {shell : Shell Host}
variable {post : Outcome → Shell Host → Prop}

/-- The script is asked for its usage only. -/
def HelpAsked (shell : Shell Host) : Prop :=
  shell.arguments.head? = some "-h"

/-- The device is named, and is a block device. -/
def Ready (surroundings : Surroundings Host) (shell : Shell Host) : Prop :=
  ∃ path,
    shell.settings localPVEnv = some path ∧
      surroundings.isBlockDevice shell.host path = true

/-- Nothing has been run in between, and the device and arguments are kept. -/
structure Untouched (shell later : Shell Host) : Prop where
  host : later.host = shell.host
  performed : later.performed = shell.performed
  device : later.settings localPVEnv = shell.settings localPVEnv
  arguments : later.arguments = shell.arguments

theorem Untouched.refl (shell : Shell Host) : Untouched shell shell :=
  ⟨rfl, rfl, rfl, rfl⟩

theorem Untouched.print
    {later : Shell Host}
    (untouched : Untouched shell later)
    (line : String) :
    Untouched shell (later.print line) :=
  ⟨untouched.host, untouched.performed, untouched.device, untouched.arguments⟩

theorem Untouched.assign
    {later : Shell Host}
    {name : String}
    (untouched : Untouched shell later)
    (other : localPVEnv ≠ name)
    (value : String) :
    Untouched shell (later.assign name value) :=
  ⟨untouched.host, untouched.performed,
    (later.assign_other value other).trans untouched.device,
    untouched.arguments⟩

theorem Untouched.ready_iff
    {later : Shell Host}
    (untouched : Untouched shell later) :
    Ready surroundings later ↔ Ready surroundings shell := by
  simp [Ready, untouched.device, untouched.host]

theorem ends_errorExit
    {message : Word}
    (exits : ∀ line, post (.exits 1) (shell.print line)) :
    surroundings.Ends errexit (errorExit message) shell post := by
  apply Surroundings.ends_call
  apply Surroundings.ends_both
  apply Surroundings.ends_echo
  intro line
  apply Surroundings.ends_exit
  exact exits line

theorem ends_help
    {usage : List Word}
    (asked :
      HelpAsked shell →
      ∀ later, Untouched shell later → post (.exits 0) later)
    (passed : ¬ HelpAsked shell → post (.goes 0) shell) :
    surroundings.Ends errexit (help usage) shell post := by
  have test_iff :
      surroundings.test shell
          (.equal [.quoted (.positional 1)] (plain "-h")) = 0 ↔
        HelpAsked shell := by
    cases shape : shell.arguments <;>
      simp [Surroundings.test, Shell.text, Shell.value, plain, HelpAsked,
        shape]
  apply Surroundings.ends_branch
  · intro holds
    have prints :
        ∀ later, Untouched shell later →
          surroundings.Ends errexit
            (usage.foldr (fun line later => .both (.echo [line]) later)
              (.exit 0)) later post := by
      induction usage with
      | nil =>
          intro later untouched
          exact Surroundings.ends_exit
            (asked (test_iff.mp holds) later untouched)
      | cons line lines ih =>
          intro later untouched
          apply Surroundings.ends_both
          apply Surroundings.ends_echo
          intro printed
          exact ih _ (untouched.print printed)
    exact prints shell (.refl shell)
  · intro fails
    exact passed fun isAsked => fails (test_iff.mpr isAsked)

theorem ends_validateBlockDevice
    (rejected :
      ¬ Ready surroundings shell →
      ∀ line, post (.exits 1) (shell.print line))
    (accepted : Ready surroundings shell → post (.goes 0) shell) :
    surroundings.Ends errexit validateBlockDevice shell post := by
  apply Surroundings.ends_call
  apply Surroundings.ends_both
  apply Surroundings.ends_branch
  · intro unset
    apply ends_errorExit
    intro line
    refine rejected ?_ line
    rintro ⟨path, isSet, _⟩
    simp [Surroundings.test, isSet] at unset
  · intro isSet
    obtain ⟨path, named⟩ : ∃ path, shell.settings localPVEnv = some path := by
      cases named : shell.settings localPVEnv with
      | none => simp [Surroundings.test, named] at isSet
      | some path => exact ⟨path, rfl⟩
    have value :
        ∀ other : Shell Host,
          other.settings = shell.settings →
          other.single [.quoted device] = path := by
      intro other same
      simp [Shell.text, Shell.value, device, same, named]
    apply Surroundings.ends_branch
    · intro notBlock
      apply ends_errorExit
      intro line
      refine rejected ?_ line
      rintro ⟨other, isOther, isBlock⟩
      obtain rfl : path = other := Option.some.inj (named.symm.trans isOther)
      simp [Surroundings.test, value, isBlock, negatedStatus, statusOf]
        at notBlock
    · intro isBlock
      refine accepted ⟨path, named, ?_⟩
      simpa [Surroundings.test, value, negatedStatus, statusOf] using isBlock

theorem ends_readIterations
    {default : String}
    (holds :
      ∀ later,
        Untouched shell later →
        later.settings "iterations" =
          some (shell.arguments.head?.getD default) →
        post (.goes 0) later) :
    surroundings.Ends errexit (readIterations default) shell post := by
  have untouched :
      Untouched shell (shell.assign "iterations" (shell.single (plain default))) :=
    (Untouched.refl shell).assign (by decide) _
  apply Surroundings.ends_both
  apply Surroundings.ends_assign
  apply Surroundings.ends_branch
  · intro given
    apply Surroundings.ends_assign
    refine holds _ (untouched.assign (by decide) _) ?_
    cases shape : shell.arguments with
    | nil => simp [Surroundings.test, shape] at given
    | cons first rest =>
        simp [Shell.text, Shell.value, shape]
  · intro none
    refine holds _ untouched ?_
    have empty : shell.arguments = [] := by
      simpa [Surroundings.test] using none
    simp [plain, Shell.text, empty]

theorem ends_checkIterations
    {iterations : String}
    (isSet : shell.settings "iterations" = some iterations)
    (rejected :
      isNumeric iterations = false →
      ∀ line, post (.exits 1) (shell.print line))
    (accepted : isNumeric iterations = true → post (.goes 0) shell) :
    surroundings.Ends errexit checkIterations shell post := by
  have value :
      shell.single [.bare (.named "iterations")] = iterations := by
    simp [Shell.text, Shell.value, isSet]
  apply Surroundings.ends_branch
  · intro notNumeric
    apply ends_errorExit
    apply rejected
    simpa [Surroundings.test, value, negatedStatus] using notNumeric
  · intro numeric
    apply accepted
    simpa [Surroundings.test, value, negatedStatus] using numeric

end CommonParts

/-! ## What the scripts do -/

/-- A pipeline of a script, and when the script takes it for done. -/
structure Step where
  pipeline : List (List Word)
  accepts : Execution → Bool

/-- The scripts with `-e` go on after a command that succeeds. -/
def succeeds (execution : Execution) : Bool :=
  execution.status == 0

/-- `doZero` looks for the message of a full device. -/
def reportsFull (execution : Execution) : Bool :=
  decide (fullMessage.toList <:+: (captured execution.output).toList)

/-- The round of `dd_zero.sh`. -/
def ddStep : Step where
  pipeline := [ddWords, teeWords]
  accepts := reportsFull

theorem accepts_ddStep : ddStep.accepts = reportsFull := by
  simp only [ddStep]

/-- The scripts that clean block devices. -/
inductive BlockCleaner where
  | blkdiscard
  | quickReset
  | shred
  | ddZero
  deriving Repr, DecidableEq

namespace BlockCleaner

def script : BlockCleaner → Script
  | .blkdiscard => CleanerScripts.blkdiscard
  | .quickReset => CleanerScripts.quickReset
  | .shred => CleanerScripts.shred
  | .ddZero => CleanerScripts.ddZero

/-- The text that a script takes for its number of rounds. -/
def iterations : BlockCleaner → List String → Option String
  | .blkdiscard, _ => none
  | .quickReset, _ => none
  | .shred, arguments => some (arguments.head?.getD "3")
  | .ddZero, arguments => some (arguments.head?.getD "1")

/--
What a script runs on a device; nothing if its number of rounds is not a
number.  A number beyond 64 bits makes no rounds.
-/
def steps (cleaner : BlockCleaner) (arguments : List String) :
    Option (List Step) :=
  match cleaner with
  | .blkdiscard => some [⟨[blkdiscardWords], succeeds⟩]
  | .quickReset => some [⟨[mkfsWords], succeeds⟩, ⟨[wipefsWords], succeeds⟩]
  | .shred =>
      if isNumeric (arguments.head?.getD "3") then
        some [⟨[shredWords], succeeds⟩]
      else
        none
  | .ddZero =>
      if isNumeric (arguments.head?.getD "1") then
        some (List.replicate
          ((integer (arguments.head?.getD "1")).getD 0) ddStep)
      else
        none

end BlockCleaner

/--
Steps run in order up to the first one that is not accepted; the last argument
says whether all of them were.
-/
inductive Performs (issued : List Word → Execution → Prop) :
    List Step → List Execution → Bool → Prop
  | finished : Performs issued [] [] true
  | stopped
      {step : Step}
      {later : List Step}
      {executions : List Execution}
      {last : Execution} :
      List.Forall₂ issued step.pipeline executions →
      executions.getLast? = some last →
      step.accepts last = false →
      Performs issued (step :: later) executions false
  | continued
      {step : Step}
      {later : List Step}
      {executions rest : List Execution}
      {last : Execution}
      {complete : Bool} :
      List.Forall₂ issued step.pipeline executions →
      executions.getLast? = some last →
      step.accepts last = true →
      Performs issued later rest complete →
      Performs issued (step :: later) (executions ++ rest) complete

namespace Performs

variable {issued : List Word → Execution → Prop}
variable {steps later : List Step}
variable {executions rest : List Execution}
variable {complete : Bool}

theorem append
    (performs : Performs issued steps executions true)
    (next : Performs issued later rest complete) :
    Performs issued (steps ++ later) (executions ++ rest) complete := by
  generalize accepted : true = all at performs
  induction performs with
  | finished => exact next
  | stopped => cases accepted
  | continued inOrder isLast accepts _ ih =>
      rw [List.cons_append, List.append_assoc]
      exact .continued inOrder isLast accepts (ih accepted)

/-- One step. -/
theorem single
    {step : Step}
    {last : Execution}
    (inOrder : List.Forall₂ issued step.pipeline executions)
    (isLast : executions.getLast? = some last) :
    Performs issued [step] executions (step.accepts last) := by
  cases accepts : step.accepts last with
  | false => exact .stopped inOrder isLast accepts
  | true =>
      have performs : Performs issued [step] (executions ++ []) true :=
        .continued inOrder isLast accepts .finished
      rwa [List.append_nil] at performs

end Performs

section Conclusions

variable {Host : Type}
variable {surroundings : Surroundings Host}
variable {shell : Shell Host}

/-- Settings in which a script runs its commands. -/
structure Settled
    (cleaner : BlockCleaner)
    (shell : Shell Host)
    (settings : String → Option String) : Prop where
  device : settings localPVEnv = shell.settings localPVEnv
  iterations :
    ∀ text, cleaner.iterations shell.arguments = some text →
      settings "iterations" = some text

/-- A command of a script. -/
def Issues
    (cleaner : BlockCleaner)
    (surroundings : Surroundings Host)
    (shell : Shell Host)
    (words : List Word)
    (execution : Execution) : Prop :=
  ∃ settings,
    Settled cleaner shell settings ∧
      surroundings.Issued settings words execution

/-- How a script ends. -/
inductive Conclusion
    (cleaner : BlockCleaner)
    (surroundings : Surroundings Host)
    (shell : Shell Host) :
    (status : Nat) → Shell Host → Prop
  | helped {later : Shell Host} :
      HelpAsked shell →
      later.performed = shell.performed →
      Conclusion cleaner surroundings shell 0 later
  | refused {later : Shell Host} :
      ¬ HelpAsked shell →
      ¬ Ready surroundings shell ∨ cleaner.steps shell.arguments = none →
      later.performed = shell.performed →
      Conclusion cleaner surroundings shell 1 later
  | ran
      {status : Nat}
      {later : Shell Host}
      {steps : List Step}
      {executions : List Execution}
      {complete : Bool} :
      ¬ HelpAsked shell →
      Ready surroundings shell →
      cleaner.steps shell.arguments = some steps →
      later.performed = shell.performed ++ executions →
      Performs (Issues cleaner surroundings shell) steps executions complete →
      (status = 0 ↔ complete = true) →
      Conclusion cleaner surroundings shell status later

/-- The commands of a pipeline, for a script with these settings. -/
theorem issues_of_piped
    {cleaner : BlockCleaner}
    {pipeline : List (List Word)}
    {executions : List Execution}
    {current later : Shell Host}
    (piped : surroundings.Piped current pipeline executions later)
    (settled : Settled cleaner shell current.settings) :
    List.Forall₂ (Issues cleaner surroundings shell) pipeline executions :=
  piped.issued.imp fun _ _ issued => ⟨current.settings, settled, issued⟩

/-- A script begins with the branch for its usage. -/
theorem ends_afterHelp
    {cleaner : BlockCleaner}
    {errexit : Bool}
    {usage : List Word}
    {rest : Statement}
    (ends :
      ¬ HelpAsked shell →
      surroundings.Ends errexit rest shell fun outcome later =>
        Conclusion cleaner surroundings shell outcome.status later) :
    surroundings.Ends errexit (.both (help usage) rest) shell
      fun outcome later =>
        Conclusion cleaner surroundings shell outcome.status later := by
  apply Surroundings.ends_both
  apply ends_help
  · intro asked later untouched
    exact .helped asked untouched.performed
  · intro notAsked
    exact ends notAsked

theorem ends_blkdiscard :
    blkdiscard.Ends surroundings shell
      (Conclusion .blkdiscard surroundings shell) := by
  apply ends_afterHelp
  intro notAsked
  apply Surroundings.ends_both
  apply ends_validateBlockDevice
  · intro notReady line
    exact .refused notAsked (.inl notReady) rfl
  intro ready
  apply Surroundings.ends_both
  apply Surroundings.ends_echo
  intro line
  refine Surroundings.ends_run ?_ (by simp)
  intro executions last later piped isLast
  have settled : Settled .blkdiscard shell (shell.print line).settings :=
    ⟨rfl, by rintro _ ⟨⟩⟩
  refine .ran notAsked ready rfl piped.performed
    (.single (issues_of_piped piped settled) isLast) ?_
  simp [succeeds]

theorem ends_quickReset :
    quickReset.Ends surroundings shell
      (Conclusion .quickReset surroundings shell) := by
  have settled :
      ∀ current : Shell Host,
        current.settings = shell.settings →
        Settled .quickReset shell current.settings :=
    fun current same => ⟨congrFun same _, by rintro _ ⟨⟩⟩
  apply ends_afterHelp
  intro notAsked
  apply Surroundings.ends_both
  apply ends_validateBlockDevice
  · intro notReady line
    exact .refused notAsked (.inl notReady) rfl
  intro ready
  apply Surroundings.ends_both
  apply Surroundings.ends_echo
  intro line
  refine Surroundings.ends_runThen ?_ ?_ (by simp)
  · intro executions last later piped isLast failed
    refine .ran notAsked ready rfl piped.performed
      (.stopped (issues_of_piped piped (settled _ rfl)) isLast ?_) ?_
    · simpa [succeeds] using failed
    · simpa [Outcome.status] using failed
  intro made last later piped isLast succeeded
  apply Surroundings.ends_both
  apply Surroundings.ends_echo
  intro line
  refine Surroundings.ends_runThen ?_ ?_ (by simp)
  · intro executions final end_ pipedAgain isFinal failed
    refine .ran notAsked ready rfl ?_
      (.continued (issues_of_piped piped (settled _ rfl)) isLast ?_
        (.stopped (issues_of_piped pipedAgain (settled _ piped.settings))
          isFinal ?_)) ?_
    · rw [pipedAgain.performed, Shell.print_performed, piped.performed,
        List.append_assoc]
      rfl
    · simpa [succeeds] using succeeded
    · simpa [succeeds] using failed
    · simpa [Outcome.status] using failed
  intro executions final end_ pipedAgain isFinal ok
  apply Surroundings.ends_echo
  intro line
  refine .ran notAsked ready rfl ?_
    (.continued (issues_of_piped piped (settled _ rfl)) isLast ?_
      (.single (issues_of_piped pipedAgain (settled _ piped.settings))
        isFinal)) ?_
  · rw [Shell.print_performed, pipedAgain.performed, Shell.print_performed,
      piped.performed, List.append_assoc]
    rfl
  · simpa [succeeds] using succeeded
  · simp [succeeds, ok, Outcome.status]

theorem ends_shred :
    shred.Ends surroundings shell (Conclusion .shred surroundings shell) := by
  apply ends_afterHelp
  intro notAsked
  apply Surroundings.ends_both
  apply ends_validateBlockDevice
  · intro notReady line
    exact .refused notAsked (.inl notReady) rfl
  intro ready
  apply Surroundings.ends_both
  apply ends_readIterations
  intro counted untouched iterations
  apply Surroundings.ends_both
  apply ends_checkIterations iterations
  · intro notNumeric line
    exact .refused notAsked (.inr (by simp [BlockCleaner.steps, notNumeric]))
      untouched.performed
  intro numeric
  refine Surroundings.ends_run ?_ (by simp)
  intro executions last later piped isLast
  have settled : Settled .shred shell counted.settings :=
    ⟨untouched.device, by rintro _ ⟨⟩; exact iterations⟩
  refine .ran notAsked ready (if_pos numeric) ?_
    (.single (issues_of_piped piped settled) isLast) ?_
  · rw [piped.performed, untouched.performed]
  · simp [succeeds]

/-- `doZero` runs its pipeline once, and exits if the device is not full. -/
theorem ends_doZero
    {outer : Shell Host}
    {post : Outcome → Shell Host → Prop}
    (settled : Settled .ddZero outer shell.settings)
    (holds :
      ∀ executions last later,
        List.Forall₂ (Issues .ddZero surroundings outer) [ddWords, teeWords]
          executions →
        executions.getLast? = some last →
        later.performed = shell.performed ++ executions →
        (∀ name, name ≠ "cmdOut" →
          later.settings name = shell.settings name) →
        post (if reportsFull last then .goes 0 else .exits 1) later) :
    surroundings.Ends false doZero shell post := by
  apply Surroundings.ends_call
  apply Surroundings.ends_both
  refine Surroundings.ends_capture ?_ (by simp)
  intro executions last later piped isLast
  have kept :
      ∀ name, name ≠ "cmdOut" →
        (later.assign "cmdOut" (captured last.output)).settings name =
          shell.settings name := by
    intro name other
    rw [later.assign_other _ other, piped.settings]
  have ends := fun after => holds executions last after
    (issues_of_piped piped settled) isLast
  have test_iff :
      surroundings.test (later.assign "cmdOut" (captured last.output))
          (.negated
            (.contains [.bare (.named "cmdOut")] fullMessage)) = 0 ↔
        reportsFull last = false := by
    simp [Surroundings.test, Shell.text, Shell.value, negatedStatus,
      reportsFull]
  apply Surroundings.ends_branch
  · intro missing
    apply ends_errorExit
    intro line
    have notFull := test_iff.mp missing
    simp only [notFull, Bool.false_eq_true, if_false] at ends
    exact ends _ piped.performed kept
  · intro found
    have full : reportsFull last = true := by
      simpa using fun notFull => found (test_iff.mpr notFull)
    simp only [full, if_true] at ends
    exact ends _ piped.performed kept

/-- What holds between two rounds of `dd_zero.sh`. -/
structure BetweenRounds
    (surroundings : Surroundings Host)
    (shell : Shell Host)
    (total left last : Nat)
    (current : Shell Host) : Prop where
  settled : Settled .ddZero shell current.settings
  counter : current.settings "counter" = some (Nat.repr (total - left))
  within : left ≤ total
  succeeded : last = 0
  performs :
    ∃ executions,
      current.performed = shell.performed ++ executions ∧
        Performs (Issues .ddZero surroundings shell)
          (List.replicate (total - left) ddStep) executions true

/-- The number of rounds that `dd_zero.sh` makes. -/
def ddRounds (arguments : List String) : Nat :=
  (integer (arguments.head?.getD "1")).getD 0

/-- The test of the loop holds as long as rounds are left. -/
theorem BetweenRounds.test_iff
    {left last : Nat}
    {current : Shell Host}
    (between :
      BetweenRounds surroundings shell (ddRounds shell.arguments) left last
        current) :
    surroundings.test current
        (.less [.quoted (.named "counter")]
          [.quoted (.named "iterations")]) = 0 ↔
      0 < left := by
  have iterations := between.settled.iterations _ rfl
  have within := between.within
  simp only [Surroundings.test, Shell.single_cons, Shell.text, Shell.value,
    between.counter, iterations, Option.getD_some, Shell.single_nil,
    String.append_empty, less]
  unfold ddRounds at within ⊢
  cases isInteger : integer (shell.arguments.head?.getD "1") with
  | none =>
      rw [isInteger] at within
      simp at within ⊢
      omega
  | some number =>
      have small := integer_lt isInteger
      rw [isInteger] at within
      simp only [Option.getD_some] at within ⊢
      rw [integer_repr (by omega)]
      simp
      omega

/-- A round of `dd_zero.sh` whose device is full leaves one round less. -/
theorem BetweenRounds.next
    {total left last : Nat}
    {executions : List Execution}
    {final : Execution}
    {current later : Shell Host}
    (between : BetweenRounds surroundings shell total (left + 1) last current)
    (issued :
      List.Forall₂ (Issues .ddZero surroundings shell) [ddWords, teeWords]
        executions)
    (isLast : executions.getLast? = some final)
    (full : reportsFull final = true)
    (performed : later.performed = current.performed ++ executions)
    (kept :
      ∀ name, name ≠ "cmdOut" → later.settings name = current.settings name) :
    BetweenRounds surroundings shell total left 0
      (later.assign "counter"
        (Nat.repr (decimal (later.value (.named "counter")) + 1))) := by
  have within := between.within
  have later_counter : later.settings "counter" =
      some (Nat.repr (total - (left + 1))) :=
    (kept _ (by decide)).trans between.counter
  refine ⟨⟨?_, ?_⟩, ?_, by omega, rfl, ?_⟩
  · rw [later.assign_other _ (by decide), kept _ (by decide)]
    exact between.settled.device
  · intro text isText
    rw [later.assign_other _ (by decide), kept _ (by decide)]
    exact between.settled.iterations text isText
  · rw [Shell.assign_same, Shell.value, later_counter, Option.getD_some,
      decimal_repr]
    rw [show total - (left + 1) + 1 = total - left by omega]
  · obtain ⟨earlier, earlierPerformed, performs⟩ := between.performs
    refine ⟨earlier ++ executions, ?_, ?_⟩
    · rw [Shell.assign_performed, performed, earlierPerformed,
        List.append_assoc]
    · have more : total - left = total - (left + 1) + 1 := by omega
      have round :
          Performs (Issues .ddZero surroundings shell) [ddStep] executions
            (ddStep.accepts final) :=
        .single issued isLast
      rw [accepts_ddStep, full] at round
      rw [more, List.replicate_succ']
      exact performs.append round

theorem ends_ddZero :
    ddZero.Ends surroundings shell
      (Conclusion .ddZero surroundings shell) := by
  apply ends_afterHelp
  intro notAsked
  apply Surroundings.ends_both
  apply ends_readIterations
  intro counted untouched iterations
  apply Surroundings.ends_both
  apply ends_checkIterations iterations
  · intro notNumeric line
    exact .refused notAsked (.inr (by simp [BlockCleaner.steps, notNumeric]))
      untouched.performed
  intro numeric
  apply Surroundings.ends_both
  apply ends_validateBlockDevice
  · intro notReady line
    exact .refused notAsked (.inl (untouched.ready_iff.not.mp notReady))
      untouched.performed
  intro countedReady
  have ready := untouched.ready_iff.mp countedReady
  have steps : BlockCleaner.ddZero.steps shell.arguments =
      some (List.replicate (ddRounds shell.arguments) ddStep) :=
    if_pos numeric
  apply Surroundings.ends_both
  apply Surroundings.ends_assign
  have initially :
      BetweenRounds surroundings shell (ddRounds shell.arguments)
        (ddRounds shell.arguments) 0
        (counted.assign "counter" (counted.single (plain "0"))) := by
    refine ⟨⟨?_, ?_⟩, ?_, Nat.le_refl _, rfl, [], ?_, ?_⟩
    · rw [counted.assign_other _ (by decide)]
      exact untouched.device
    · rintro _ ⟨⟩
      rw [counted.assign_other _ (by decide)]
      exact iterations
    · simp [plain, Shell.text]
      rfl
    · simpa using untouched.performed
    · simpa using .finished
  refine Surroundings.ends_loop
    (BetweenRounds surroundings shell (ddRounds shell.arguments)) ?_ ?_
    initially
  · intro bound last current between again
    obtain ⟨left, rfl⟩ : ∃ left, bound = left + 1 :=
      ⟨bound - 1, by have := between.test_iff.mp again; omega⟩
    apply Surroundings.ends_both
    apply Surroundings.ends_echo
    intro line
    apply Surroundings.ends_both
    refine ends_doZero between.settled ?_
    intro executions final later issued isLast performed kept
    cases full : reportsFull final with
    | true =>
        apply Surroundings.ends_increment
        exact ⟨left, Nat.lt_succ_self left,
          between.next issued isLast full performed kept⟩
    | false =>
        obtain ⟨earlier, earlierPerformed, performs⟩ := between.performs
        have within := between.within
        have whole :
            List.replicate (ddRounds shell.arguments) ddStep =
              List.replicate (ddRounds shell.arguments - (left + 1)) ddStep ++
                ddStep :: List.replicate left ddStep := by
          rw [← List.replicate_succ, List.replicate_append_replicate,
            Nat.sub_add_cancel within]
        have stopped :
            Performs (Issues .ddZero surroundings shell)
              (ddStep :: List.replicate left ddStep) executions false :=
          .stopped issued isLast (by rw [accepts_ddStep, full])
        refine .ran notAsked ready (steps.trans (congrArg some whole)) ?_
          (performs.append stopped) (by simp [Outcome.status])
        rw [performed, Shell.print_performed, earlierPerformed,
          List.append_assoc]
  · intro left last current between noMore
    obtain rfl : left = 0 := by
      have := between.test_iff.not.mp noMore
      omega
    obtain ⟨executions, performed, performs⟩ := between.performs
    refine .ran notAsked ready steps performed performs ?_
    simpa [Outcome.status] using between.succeeded

/-- Every script comes to an end, in one of these ways. -/
theorem ends_script
    (cleaner : BlockCleaner)
    (surroundings : Surroundings Host)
    (shell : Shell Host) :
    cleaner.script.Ends surroundings shell
      (Conclusion cleaner surroundings shell) := by
  cases cleaner with
  | blkdiscard => exact ends_blkdiscard
  | quickReset => exact ends_quickReset
  | shred => exact ends_shred
  | ddZero => exact ends_ddZero

end Conclusions

/-! ## Truthful reports -/

namespace Performs

variable {issued : List Word → Execution → Prop}
variable {steps : List Step}
variable {executions : List Execution}

/-- Whether all steps were accepted can be read off what was run. -/
theorem complete_unique
    {first second : Bool}
    (performs : Performs issued steps executions first)
    (again : Performs issued steps executions second) :
    first = second := by
  induction performs generalizing second with
  | finished =>
      cases again
      rfl
  | @stopped _ _ ran _ inOrder isLast rejected =>
      cases again with
      | stopped => rfl
      | @continued _ _ front rest _ _ inOrderAgain isLastAgain accepted _ =>
          have sameLength := inOrder.length_eq.symm.trans inOrderAgain.length_eq
          obtain rfl : rest = [] := by simpa using sameLength
          rw [List.append_nil, isLastAgain] at isLast
          cases isLast
          rw [rejected] at accepted
          cases accepted
  | @continued _ _ front rest _ _ inOrder isLast accepted _ ih =>
      generalize same : front ++ rest = ran at again
      cases again with
      | stopped inOrderAgain isLastAgain rejected =>
          have sameLength := inOrder.length_eq.symm.trans inOrderAgain.length_eq
          obtain ⟨rfl, _⟩ := List.append_inj
            (same.trans (List.append_nil _).symm) sameLength
          rw [isLast] at isLastAgain
          cases isLastAgain
          rw [rejected] at accepted
          cases accepted
      | continued inOrderAgain _ _ performs =>
          have sameLength := inOrder.length_eq.symm.trans inOrderAgain.length_eq
          obtain ⟨rfl, rfl⟩ := List.append_inj same sameLength
          exact ih performs

/-- Something is run if there is something to run. -/
theorem steps_eq_nil
    (performs : Performs issued steps executions true)
    (nothing : executions = []) :
    steps = [] := by
  cases performs with
  | finished => rfl
  | continued _ isLast =>
      rw [(List.append_eq_nil_iff.mp nothing).1] at isLast
      cases isLast

end Performs

/-- Scripts without steps. -/
theorem BlockCleaner.steps_eq_nil_iff
    (cleaner : BlockCleaner)
    (arguments : List String) :
    cleaner.steps arguments = some [] ↔
      cleaner = .ddZero ∧
        isNumeric (arguments.head?.getD "1") = true ∧
        (decimal (arguments.head?.getD "1") = 0 ∨
          9223372036854775808 ≤ decimal (arguments.head?.getD "1")) := by
  cases cleaner with
  | blkdiscard => simp [BlockCleaner.steps]
  | quickReset => simp [BlockCleaner.steps]
  | shred => simp [BlockCleaner.steps]
  | ddZero =>
      by_cases numeric : isNumeric (arguments.head?.getD "1") = true
      · by_cases fits :
          decimal (arguments.head?.getD "1") < 9223372036854775808
        · have small :
              ¬ 9223372036854775808 ≤ decimal (arguments.head?.getD "1") :=
            Nat.not_le.mpr fits
          simp [BlockCleaner.steps, integer, numeric, fits, small]
        · have large :
              9223372036854775808 ≤ decimal (arguments.head?.getD "1") :=
            Nat.le_of_not_lt fits
          simp [BlockCleaner.steps, integer, numeric, fits, large]
      · simp [BlockCleaner.steps, numeric]

/--
A cleaner always comes to an end, and with status 0 exactly if it was asked for
its usage, or the device is a block device and every step of the cleaning was
run and taken for done.
-/
theorem ends_succeeds_iff
    {Host : Type}
    (cleaner : BlockCleaner)
    (surroundings : Surroundings Host)
    (shell : Shell Host) :
    cleaner.script.Ends surroundings shell fun status later =>
      ∃ executions,
        later.performed = shell.performed ++ executions ∧
          (status = 0 ↔
            HelpAsked shell ∨
              Ready surroundings shell ∧
                ∃ steps,
                  cleaner.steps shell.arguments = some steps ∧
                    Performs (Issues cleaner surroundings shell) steps
                      executions true) := by
  apply (ends_script cleaner surroundings shell).mono
  intro status later conclusion
  cases conclusion with
  | helped asked performed =>
      exact ⟨[], by simpa using performed, by simp [asked]⟩
  | refused notAsked refusal performed =>
      refine ⟨[], by simpa using performed, ?_⟩
      rcases refusal with notReady | noSteps
      · simp [notAsked, notReady]
      · simp [notAsked, noSteps]
  | @ran _ _ steps executions complete notAsked ready isSteps performed
      performs status_iff =>
      refine ⟨executions, performed, ?_⟩
      rw [status_iff]
      constructor
      · rintro rfl
        exact .inr ⟨ready, steps, isSteps, performs⟩
      · rintro (asked | ⟨_, others, isOthers, performsAll⟩)
        · exact (notAsked asked).elim
        · cases isSteps.symm.trans isOthers
          exact performs.complete_unique performsAll

/--
A cleaner reports success without having run a single command exactly if it was
asked for its usage, or is `dd_zero.sh` on a block device with a number of
iterations that is zero or does not fit into 64 bits.
-/
theorem succeeds_idle_iff
    {Host : Type}
    (cleaner : BlockCleaner)
    (surroundings : Surroundings Host)
    (shell : Shell Host) :
    cleaner.script.Ends surroundings shell fun status later =>
      ∃ executions,
        later.performed = shell.performed ++ executions ∧
          (status = 0 ∧ executions = [] ↔
            HelpAsked shell ∨
              Ready surroundings shell ∧
                cleaner = .ddZero ∧
                isNumeric (shell.arguments.head?.getD "1") = true ∧
                (decimal (shell.arguments.head?.getD "1") = 0 ∨
                  9223372036854775808 ≤
                    decimal (shell.arguments.head?.getD "1"))) := by
  simp only [← BlockCleaner.steps_eq_nil_iff]
  apply (ends_script cleaner surroundings shell).mono
  intro status later conclusion
  cases conclusion with
  | helped asked performed =>
      exact ⟨[], by simpa using performed, by simp [asked]⟩
  | refused notAsked refusal performed =>
      refine ⟨[], by simpa using performed, ?_⟩
      rcases refusal with notReady | noSteps
      · simp [notAsked, notReady]
      · simp [notAsked, noSteps]
  | @ran _ _ steps executions complete notAsked ready isSteps performed
      performs status_iff =>
      refine ⟨executions, performed, ?_⟩
      rw [status_iff, isSteps]
      constructor
      · rintro ⟨rfl, nothing⟩
        exact .inr ⟨ready, congrArg some (performs.steps_eq_nil nothing)⟩
      · rintro (asked | ⟨_, noSteps⟩)
        · exact (notAsked asked).elim
        · cases noSteps
          cases performs
          exact ⟨rfl, rfl⟩

/-! ## The devices that are named -/

/-- A path that the shell does not split. -/
def Unsplit (path : String) : Prop :=
  ∀ character ∈ path.toList, isBlank character = false

instance (path : String) : Decidable (Unsplit path) :=
  List.decidableBAll _ _

section Naming

variable {Host : Type}
variable {surroundings : Surroundings Host}
variable {current : Shell Host}

theorem expand_plain (text : String) :
    surroundings.expand current (plain text) = [text] := by
  have expanded :
      surroundings.expand current [.text text] =
        [current.single [.text text]] := by
    rw [surroundings.expand_eq_single_iff] <;> simp [Shell.glyphs]
  simpa [plain, Shell.text] using expanded

theorem isBlank_of_isDigit
    {character : Char}
    (digit : character.isDigit = true) :
    isBlank character = false ∧ isWildcard character = false := by
  constructor
  · by_contra blank
    simp only [isBlank, Bool.not_eq_false, Bool.or_eq_true, beq_iff_eq]
      at blank
    rcases blank with (rfl | rfl) | rfl <;> cases digit
  · by_contra wildcard
    simp only [isWildcard, Bool.not_eq_false, Bool.or_eq_true, beq_iff_eq]
      at wildcard
    rcases wildcard with (rfl | rfl) | rfl <;> cases digit

/--
The arguments that a word about a device and a number becomes, given those that
the path of the device becomes behind some text.
-/
def argumentsOf (naming : String → List String) (iterations : String) :
    Word → List String
  | [.text text] => [text]
  | [.bare (.named name)] =>
      if name = localPVEnv then naming "" else [iterations]
  | [.text lead, .bare _] => naming lead
  | _ => []

section Arguments

variable (naming : String → List String)
variable (iterations text : String)

@[simp] theorem argumentsOf_plain :
    argumentsOf naming iterations (plain text) = [text] := rfl

@[simp] theorem argumentsOf_device :
    argumentsOf naming iterations [.bare device] = naming "" := by
  simp [argumentsOf, device]

@[simp] theorem argumentsOf_iterations :
    argumentsOf naming iterations [.bare (.named "iterations")] =
      [iterations] := by
  simp [argumentsOf, localPVEnv]

@[simp] theorem argumentsOf_text_device :
    argumentsOf naming iterations [.text text, .bare device] = naming text :=
  rfl

end Arguments

def commandOf
    (naming : String → List String)
    (iterations : String)
    (words : List Word) :
    List String :=
  words.flatMap (argumentsOf naming iterations)

/-- The commands of a cleaner, given what the path of the device becomes. -/
def BlockCleaner.commands
    (cleaner : BlockCleaner)
    (naming : String → List String)
    (arguments : List String) :
    List (List String) :=
  match cleaner with
  | .blkdiscard => [["blkdiscard", "-v"] ++ naming ""]
  | .quickReset =>
      [["ionice", "-c", "3", "mkfs", "-F"] ++ naming "",
        ["ionice", "-c", "3", "wipefs", "-a"] ++ naming ""]
  | .shred =>
      [["ionice", "-c", "3", "shred", "-vzf", "-n",
        arguments.head?.getD "3"] ++ naming ""]
  | .ddZero =>
      (List.replicate (ddRounds arguments)
        [["ionice", "-c", "3", "dd", "if=/dev/zero"] ++ naming "of=" ++
            ["bs=8096"],
          ["tee", "/dev/stderr"]]).flatten

/-- The commands that a cleaner is meant to run on a device. -/
def BlockCleaner.intended
    (cleaner : BlockCleaner)
    (path : String)
    (arguments : List String) :
    List (List String) :=
  cleaner.commands (fun lead => [lead ++ path]) arguments

/-- The commands of a cleaner with the pieces of the path between its blanks. -/
def BlockCleaner.split
    (cleaner : BlockCleaner)
    (path : String)
    (arguments : List String) :
    List (List String) :=
  cleaner.commands (fun lead => pieces lead path) arguments

variable {path iterations : String}

/-- Words without the number of rounds. -/
theorem command_eq
    (isDevice : current.settings localPVEnv = some path)
    (noWildcard :
      ∀ character ∈ path.toList, isWildcard character = false) :
    ∀ words ∈ [blkdiscardWords, mkfsWords, wipefsWords, ddWords, teeWords],
      words.flatMap (surroundings.expand current) =
        commandOf (fun lead => pieces lead path) iterations words := by
  have isValue : current.value device = path := by
    simp [Shell.value, device, isDevice]
  have alone := surroundings.expand_bare isValue noWildcard
  have joined :=
    surroundings.expand_text_bare isValue (by decide : "of=" ≠ "") noWildcard
  intro words member
  simp only [List.mem_cons, List.not_mem_nil, or_false] at member
  rcases member with rfl | rfl | rfl | rfl | rfl
  · simp [blkdiscardWords, commandOf, expand_plain, alone]
  · simp [mkfsWords, commandOf, expand_plain, alone]
  · simp [wipefsWords, commandOf, expand_plain, alone]
  · simp [ddWords, commandOf, expand_plain, joined]
  · simp [teeWords, commandOf, expand_plain]

/-- The words of `shred.sh`, whose number is not split. -/
theorem shredCommand_eq
    (isDevice : current.settings localPVEnv = some path)
    (isIterations : current.settings "iterations" = some iterations)
    (numeric : isNumeric iterations = true)
    (noWildcard :
      ∀ character ∈ path.toList, isWildcard character = false) :
    shredWords.flatMap (surroundings.expand current) =
      commandOf (fun lead => pieces lead path) iterations shredWords := by
  have isValue : current.value device = path := by
    simp [Shell.value, device, isDevice]
  have alone := surroundings.expand_bare isValue noWildcard
  have digits :
      iterations ≠ "" ∧
        ∀ character ∈ iterations.toList, character.isDigit = true := by
    simpa [isNumeric] using numeric
  have number :
      surroundings.expand current [.bare (.named "iterations")] =
        [iterations] := by
    have isNumber : current.value (.named "iterations") = iterations := by
      simp [Shell.value, isIterations]
    have expanded := surroundings.expand_bare isNumber fun character member =>
      (isBlank_of_isDigit (digits.2 character member)).2
    have single := (@pieces_eq_single_iff "" _ digits.1).mpr
      fun character member =>
        (isBlank_of_isDigit (digits.2 character member)).1
    rw [expanded, single, String.empty_append]
  simp [shredWords, commandOf, expand_plain, number, alone]

/-- The commands of steps whose words are taken as they are meant. -/
theorem Performs.commands_prefix
    {issued : List Word → Execution → Prop}
    {meant : List Word → List String}
    {steps : List Step}
    {executions : List Execution}
    {complete : Bool}
    (performs : Performs issued steps executions complete)
    (asMeant :
      ∀ step ∈ steps, ∀ words ∈ step.pipeline, ∀ execution,
        issued words execution → execution.command = meant words) :
    executions.map Execution.command <+:
      (steps.flatMap Step.pipeline).map meant := by
  have ofPipeline :
      ∀ {pipeline : List (List Word)} {ran : List Execution},
        List.Forall₂ issued pipeline ran →
        (∀ words ∈ pipeline, ∀ execution,
          issued words execution → execution.command = meant words) →
        ran.map Execution.command = pipeline.map meant := by
    intro pipeline ran inOrder agrees
    induction inOrder with
    | nil => rfl
    | cons isIssued _ ih =>
        rw [List.map_cons, List.map_cons,
          agrees _ List.mem_cons_self _ isIssued,
          ih fun words member => agrees words (List.mem_cons_of_mem _ member)]
  induction performs with
  | finished => exact List.nil_prefix
  | stopped inOrder _ _ =>
      rw [ofPipeline inOrder (asMeant _ List.mem_cons_self),
        List.flatMap_cons, List.map_append]
      exact List.prefix_append _ _
  | continued inOrder _ _ _ ih =>
      rw [List.map_append, ofPipeline inOrder (asMeant _ List.mem_cons_self),
        List.flatMap_cons, List.map_append]
      exact (List.prefix_append_right_inj _).mpr
        (ih fun step member => asMeant step (List.mem_cons_of_mem _ member))

/-- The steps of a cleaner spell out its commands. -/
theorem BlockCleaner.commands_eq
    {cleaner : BlockCleaner}
    {naming : String → List String}
    {arguments : List String}
    {listed : List Step}
    (isSteps : cleaner.steps arguments = some listed) :
    cleaner.commands naming arguments =
      (listed.flatMap Step.pipeline).map
        (commandOf naming ((cleaner.iterations arguments).getD "")) := by
  cases cleaner with
  | blkdiscard =>
      cases isSteps
      simp [commands, blkdiscardWords, commandOf]
  | quickReset =>
      cases isSteps
      simp [commands, mkfsWords, wipefsWords, commandOf]
  | shred =>
      simp only [BlockCleaner.steps, Option.ite_none_right_eq_some, Option.some.injEq]
        at isSteps
      obtain ⟨_, rfl⟩ := isSteps
      simp [commands, shredWords, commandOf, BlockCleaner.iterations]
  | ddZero =>
      simp only [BlockCleaner.steps, Option.ite_none_right_eq_some, Option.some.injEq]
        at isSteps
      obtain ⟨_, rfl⟩ := isSteps
      have round :
          ddStep.pipeline.map (commandOf naming
              ((BlockCleaner.ddZero.iterations arguments).getD "")) =
            [["ionice", "-c", "3", "dd", "if=/dev/zero"] ++ naming "of=" ++
                ["bs=8096"],
              ["tee", "/dev/stderr"]] := by
        simp [ddStep, ddWords, teeWords, commandOf]
      rw [List.flatMap_replicate, List.map_flatten, List.map_replicate, round]
      rfl

/-- What the words of a cleaner become. -/
theorem command_of_issues
    {cleaner : BlockCleaner}
    {shell : Shell Host}
    {steps : List Step}
    {step : Step}
    {words : List Word}
    {execution : Execution}
    (isSteps : cleaner.steps shell.arguments = some steps)
    (isStep : step ∈ steps)
    (isWords : words ∈ step.pipeline)
    (issues : Issues cleaner surroundings shell words execution)
    (named : shell.settings localPVEnv = some path)
    (noWildcard :
      ∀ character ∈ path.toList, isWildcard character = false) :
    execution.command =
      commandOf (fun lead => pieces lead path)
        ((cleaner.iterations shell.arguments).getD "") words := by
  obtain ⟨settings, settled, current, rfl, isCommand⟩ := issues
  have isDevice := settled.device.trans named
  rw [isCommand]
  have common := fun iterations words =>
    @command_eq _ surroundings current path iterations isDevice noWildcard words
  cases cleaner with
  | blkdiscard =>
      cases isSteps
      obtain rfl := List.mem_singleton.mp isStep
      obtain rfl := List.mem_singleton.mp isWords
      exact common _ _ (by simp)
  | quickReset =>
      cases isSteps
      rcases List.mem_pair.mp isStep with rfl | rfl
      · obtain rfl := List.mem_singleton.mp isWords
        exact common _ _ (by simp)
      · obtain rfl := List.mem_singleton.mp isWords
        exact common _ _ (by simp)
  | shred =>
      simp only [BlockCleaner.steps, Option.ite_none_right_eq_some,
        Option.some.injEq] at isSteps
      obtain ⟨numeric, rfl⟩ := isSteps
      obtain rfl := List.mem_singleton.mp isStep
      obtain rfl := List.mem_singleton.mp isWords
      exact shredCommand_eq isDevice (settled.iterations _ rfl) numeric
        noWildcard
  | ddZero =>
      simp only [BlockCleaner.steps, Option.ite_none_right_eq_some,
        Option.some.injEq] at isSteps
      obtain ⟨_, rfl⟩ := isSteps
      obtain rfl := List.eq_of_mem_replicate isStep
      rcases List.mem_pair.mp isWords with rfl | rfl
      · exact common _ _ (by simp)
      · exact common _ _ (by simp)

/-- A cleaner names the device in the first command that it runs. -/
theorem BlockCleaner.naming_of_first
    {cleaner : BlockCleaner}
    {naming other : String → List String}
    {arguments : List String}
    {command : List String}
    (first : (cleaner.commands naming arguments).head? = some command)
    (otherFirst : (cleaner.commands other arguments).head? = some command) :
    ∃ lead, naming lead = other lead := by
  have same := first.trans otherFirst.symm
  cases cleaner with
  | blkdiscard => exact ⟨"", by simpa [commands] using same⟩
  | quickReset => exact ⟨"", by simpa [commands] using same⟩
  | shred => exact ⟨"", by simpa [commands] using same⟩
  | ddZero =>
      simp only [commands] at first same
      cases rounds : ddRounds arguments with
      | zero => simp [rounds] at first
      | succ more =>
          rw [rounds] at same
          exact ⟨"of=", by simpa [List.replicate_succ] using same⟩

end Naming

/--
The path of the device reaches the commands of a cleaner unquoted.  For a path
without pattern characters, the commands that are run, an initial part of those
of the cleaner, are given the pieces of the path between its blanks.  They are
the intended ones exactly if the path has no blanks; the pieces of another path
may name other devices.
-/
theorem commands_intended_iff_unsplit
    {Host : Type}
    {path : String}
    (cleaner : BlockCleaner)
    (surroundings : Surroundings Host)
    (shell : Shell Host)
    (named : shell.settings localPVEnv = some path)
    (filled : path ≠ "")
    (noWildcard :
      ∀ character ∈ path.toList, isWildcard character = false) :
    cleaner.script.Ends surroundings shell fun _ later =>
      ∃ executions,
        later.performed = shell.performed ++ executions ∧
          executions.map Execution.command <+:
            cleaner.split path shell.arguments ∧
          (executions ≠ [] →
            (executions.map Execution.command <+:
                cleaner.intended path shell.arguments ↔
              Unsplit path)) := by
  apply (ends_script cleaner surroundings shell).mono
  intro status later conclusion
  cases conclusion with
  | helped _ performed =>
      exact ⟨[], by simpa using performed, List.nil_prefix,
        fun ran => (ran rfl).elim⟩
  | refused _ _ performed =>
      exact ⟨[], by simpa using performed, List.nil_prefix,
        fun ran => (ran rfl).elim⟩
  | @ran _ _ steps executions _ _ _ isSteps performed performs _ =>
      have splits :
          executions.map Execution.command <+:
            cleaner.split path shell.arguments := by
        rw [BlockCleaner.split, BlockCleaner.commands_eq isSteps]
        apply performs.commands_prefix
        intro step isStep words isWords execution issues
        exact command_of_issues isSteps isStep isWords issues named noWildcard
      refine ⟨executions, performed, splits, fun ran => ?_⟩
      constructor
      · intro asIntended
        obtain ⟨execution, rest, rfl⟩ := List.exists_cons_of_ne_nil ran
        obtain ⟨_, isSplit, _⟩ := List.cons_prefix_iff.mp splits
        obtain ⟨_, isIntended, _⟩ := List.cons_prefix_iff.mp asIntended
        obtain ⟨lead, same⟩ :=
          BlockCleaner.naming_of_first
            (List.head?_eq_some_iff.mpr ⟨_, isSplit⟩)
            (List.head?_eq_some_iff.mpr ⟨_, isIntended⟩)
        exact (pieces_eq_single_iff filled).mp same
      · intro unsplit
        have same :
            (fun lead => pieces lead path) = fun lead => [lead ++ path] :=
          funext fun _ => (pieces_eq_single_iff filled).mpr unsplit
        rw [BlockCleaner.split, same] at splits
        exact splits

/-- A host with block devices only, on which every command succeeds. -/
def sampleHost : Surroundings Unit where
  perform := fun _ _ _ => { status := 0, output := "", host := () }
  isBlockDevice := fun _ _ => true
  isDirectory := fun _ _ => false
  pathnames := fun _ _ => []

/-- A shell started for a device. -/
def sampleShell (path : String) : Shell Unit where
  name := "shred.sh"
  settings := fun name => if name = localPVEnv then some path else none
  arguments := []
  host := ()
  performed := []
  printed := []

/-- On the volume `a b`, `shred.sh` is run on two other devices. -/
theorem commands_intended_iff_unsplit_of_sampleShell :
    BlockCleaner.shred.script.Ends sampleHost (sampleShell "/mnt/disks/a b")
      fun status later =>
        status = 0 ∧
          later.performed.map Execution.command =
            [["ionice", "-c", "3", "shred", "-vzf", "-n", "3", "/mnt/disks/a",
              "b"]] ∧
          later.performed.map Execution.command <+:
            BlockCleaner.shred.split "/mnt/disks/a b" [] ∧
          ¬ later.performed.map Execution.command <+:
            BlockCleaner.shred.intended "/mnt/disks/a b" [] := by
  have noWildcard :
      "/mnt/disks/a b".toList.all (fun character => !isWildcard character) =
        true := by
    decide
  have ran :
      ((sampleHost.eval true 0 shred.body (sampleShell "/mnt/disks/a b")).map
        fun result =>
          (result.1, result.2.performed.map Execution.command)) =
        some (.goes 0,
          [["ionice", "-c", "3", "shred", "-vzf", "-n", "3", "/mnt/disks/a",
            "b"]]) := by
    decide +kernel
  obtain ⟨fuel, outcome, later, ended, executions, performed, splits,
      intended_iff⟩ :=
    commands_intended_iff_unsplit .shred sampleHost
      (sampleShell "/mnt/disks/a b") rfl (by decide)
      (fun character member =>
        Bool.not_eq_true' _ ▸ List.all_eq_true.mp noWildcard character member)
  obtain ⟨result, atOnce, isResult⟩ := Option.map_eq_some_iff.mp ran
  -- more fuel does not change how the script ends
  have same := (Surroundings.eval_of_le (Nat.zero_le fuel) atOnce).symm.trans
    ended
  obtain rfl := Option.some.inj same
  obtain ⟨rfl, commands⟩ := Prod.mk.inj isResult
  have isPerformed : later.performed = executions := performed
  subst isPerformed
  refine ⟨fuel, _, later, ended, rfl, commands, splits, fun intended => ?_⟩
  have nonempty : later.performed ≠ [] := by
    intro nothing
    rw [nothing] at commands
    cases commands
  have unsplit := (intended_iff nonempty).mp intended
  revert unsplit
  decide

end CleanerScripts

end LocalProvisioner

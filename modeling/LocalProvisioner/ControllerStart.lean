import LocalProvisioner.Configuration
import LocalProvisioner.NodeTaint

namespace LocalProvisioner

/-!
# Starting the controller again

`RunLocalController` starts one instance of `StartLocalController` for each
configuration it receives.  An instance is initialised as if it were the only
one, but its readiness handler is registered on `http.DefaultServeMux`, which
belongs to the process: the second registration of a path panics.

The outcomes of library calls are parameters.  Informers, event recorders and
the rest of what an instance builds for itself are left out.
-/

/-- How the initialisation of an instance takes the process down. -/
inductive Abort where
  | fatal : (message : String) → Abort
  | panic : (message : String) → Abort
  deriving Repr, DecidableEq

/--
The patterns registered on `http.DefaultServeMux`, and the source line that
registers a pattern, as the binary has it.
-/
structure ServeMux where
  registeredAt : (pattern : String) → String
  patterns : List String

/-- The text with which `http` refuses a pattern that is registered already. -/
def ServeMux.conflict (mux : ServeMux) (pattern : String) : String :=
  let registration :=
    "pattern " ++ quoted pattern ++ " (registered at " ++
      mux.registeredAt pattern ++ ")"
  registration ++ " conflicts with " ++ registration ++ ":\n" ++ pattern ++
    " matches the same requests as " ++ pattern

/-- `ServeMux.Handle`. -/
def ServeMux.handle (mux : ServeMux) (pattern : String) :
    Except Abort ServeMux :=
  if pattern ∈ mux.patterns then
    .error (.panic (mux.conflict pattern))
  else
    .ok { mux with patterns := pattern :: mux.patterns }

/-- The loop over the checks in `InstallPathHandlerWithHealthyFunc`. -/
def ServeMux.handleChecks (path : String) :
    List String → ServeMux → Except Abort ServeMux
  | [], mux => .ok mux
  | check :: rest, mux =>
      match mux.handle (path ++ "/" ++ check) with
      | .error abort => .error abort
      | .ok mux => handleChecks path rest mux

/-- `healthz.InstallPathHandler` with the names of the checks. -/
def installPathHandler
    (mux : ServeMux)
    (path : String)
    (checks : List String) :
    Except Abort ServeMux :=
  match mux.handle path with
  | .error abort => .error abort
  | .ok mux =>
      mux.handleChecks path (if checks = [] then ["ping"] else checks)

/-- The name of the readiness check of a discoverer. -/
def readyzCheckName : String :=
  "DiscovererReadyzCheck"

/-- A configuration as the controller reads it; nil maps and slices are empty. -/
structure ControllerConfig where
  storageClassConfig : GoMap MountConfig
  labelsForPV : GoMap String
  values : ConfigValues

/-- What `RunLocalController` is called with and passes on to each instance. -/
structure ControllerArguments where
  node : Node
  namespaceName : String
  jobImage : String
  marshalAffinity : NodeSelector → Except String String

/-- The name of the provisioner. -/
def provisionerName (node : Node) (useNodeNameOnly : Bool) : String :=
  if useNodeNameOnly then
    "local-volume-provisioner-" ++ node.name
  else
    "local-volume-provisioner-" ++ node.name ++ "-" ++ node.uid

/-- `UserConfigFromProvisionerConfig`, and the `RuntimeConfig` made from it. -/
def ControllerArguments.runtimeConfig
    (arguments : ControllerArguments)
    (config : ControllerConfig) :
    RuntimeConfig where
  name := provisionerName arguments.node config.values.useNodeNameOnly
  node := arguments.node
  discoveryMap := config.storageClassConfig
  nodeLabelsForPV := config.values.nodeLabelsForPV.getD []
  labelsForPV := config.labelsForPV
  useAlphaAPI := config.values.useAlphaAPI
  useJobForCleaning := config.values.useJobForCleaning
  useNodeNameOnly := config.values.useNodeNameOnly
  setPVOwnerRef := config.values.setPVOwnerRef
  namespaceName := arguments.namespaceName
  jobContainerImage := arguments.jobImage
  jobTolerations := config.values.jobTolerations.getD []
  marshalAffinity := arguments.marshalAffinity

/-- The outcomes of the library calls of one initialisation. -/
structure StartOutcomes where
  newVolumeUtil : Except String Unit
  newJobController : Except String Unit
  cacheSync : List (String × Bool)

/-- What the loop of an instance runs with. -/
structure ControllerInstance where
  discoverer : Discoverer
  remover : Remover

/-- The loop over the result of `WaitForCacheSync`. -/
def checkCacheSync : List (String × Bool) → Except Abort Unit
  | [] => .ok ()
  | (_, true) :: rest => checkCacheSync rest
  | (informer, false) :: _ =>
      .error (.fatal ("Error syncing informer for " ++ informer))

/-- The initialisation from the readiness handler on. -/
def installAndSync
    (arguments : ControllerArguments)
    (config : ControllerConfig)
    (outcomes : StartOutcomes)
    (discoverer : Discoverer)
    (mux : ServeMux) :
    Except Abort (ControllerInstance × ServeMux) :=
  match installPathHandler mux "/ready" [readyzCheckName] with
  | .error abort => .error abort
  | .ok mux =>
      match checkCacheSync outcomes.cacheSync with
      | .error abort => .error abort
      | .ok _ =>
          .ok ({
            discoverer
            remover :=
              newRemover arguments.node
                config.values.removeNodeNotReadyTaint
                config.values.provisionerNotReadyNodeTaintKey }, mux)

/-- `StartLocalController` up to its loop. -/
def startLocalController
    (arguments : ControllerArguments)
    (config : ControllerConfig)
    (outcomes : StartOutcomes)
    (mux : ServeMux) :
    Except Abort (ControllerInstance × ServeMux) :=
  match outcomes.newVolumeUtil with
  | .error err => .error (.fatal ("Error initializing VolumeUtil: " ++ err))
  | .ok _ =>
      match (if config.values.useJobForCleaning then
          outcomes.newJobController else .ok ()) with
      | .error err =>
          .error (.fatal ("Error initializing jobController: " ++ err))
      | .ok _ =>
          match newDiscoverer (arguments.runtimeConfig config) with
          | .error err =>
              .error (.fatal ("Error initializing discoverer: " ++ err))
          | .ok discoverer =>
              installAndSync arguments config outcomes discoverer mux

/-- The instances that `RunLocalController` starts one after the other. -/
def runInstances (arguments : ControllerArguments) :
    List (ControllerConfig × StartOutcomes) →
    ServeMux →
    Except Abort (List ControllerInstance × ServeMux)
  | [], mux => .ok ([], mux)
  | (config, outcomes) :: rest, mux =>
      match startLocalController arguments config outcomes mux with
      | .error abort => .error abort
      | .ok (started, mux) =>
          match runInstances arguments rest mux with
          | .error abort => .error abort
          | .ok (instances, mux) => .ok (started :: instances, mux)

/-!
## When an initialisation reaches its loop
-/

/-- A node that a discoverer can be made for. -/
def Node.Identified (node : Node) : Prop :=
  node.name ≠ "" ∧
    node.uid ≠ "" ∧
    ∃ hostname, node.labels.lookup hostnameLabel = some hostname

/-- Everything but the readiness handler goes well. -/
structure ControllerConfig.Startable
    (config : ControllerConfig)
    (arguments : ControllerArguments)
    (outcomes : StartOutcomes) : Prop where
  volumeUtil : outcomes.newVolumeUtil = .ok ()
  jobController :
    config.values.useJobForCleaning = true →
    outcomes.newJobController = .ok ()
  identified : arguments.node.Identified
  synced : ∀ informer, (informer, false) ∉ outcomes.cacheSync

/-- The paths of the readiness handler are free. -/
def ServeMux.Free (mux : ServeMux) : Prop :=
  "/ready" ∉ mux.patterns ∧
    "/ready" ++ "/" ++ readyzCheckName ∉ mux.patterns

/-- A pattern is registered exactly if it is new. -/
theorem handle_ok_iff
    {mux after : ServeMux}
    {pattern : String} :
    mux.handle pattern = .ok after ↔
      pattern ∉ mux.patterns ∧
        after = { mux with patterns := pattern :: mux.patterns } := by
  unfold ServeMux.handle
  split
  · rename_i registered
    simp [registered]
  · rename_i isNew
    simp [isNew, eq_comm]

/-- The readiness handler is installed exactly if its paths are free. -/
theorem installPathHandler_ok_iff
    {mux after : ServeMux} :
    installPathHandler mux "/ready" [readyzCheckName] = .ok after ↔
      mux.Free ∧
        after =
          { mux with
            patterns :=
              ("/ready" ++ "/" ++ readyzCheckName) :: "/ready" ::
                mux.patterns } := by
  have different : "/ready" ++ "/" ++ readyzCheckName ≠ "/ready" := by
    decide
  unfold installPathHandler
  cases first : mux.handle "/ready" with
  | error abort =>
      have registered : "/ready" ∈ mux.patterns := by
        by_contra isNew
        rw [handle_ok_iff.mpr ⟨isNew, rfl⟩] at first
        cases first
      simp [ServeMux.Free, registered]
  | ok middle =>
      obtain ⟨isNew, rfl⟩ := handle_ok_iff.mp first
      simp only [reduceCtorEq, if_false, ServeMux.handleChecks]
      cases second :
          ServeMux.handle { mux with patterns := "/ready" :: mux.patterns }
            ("/ready" ++ "/" ++ readyzCheckName) with
      | error abort =>
          have registered :
              "/ready" ++ "/" ++ readyzCheckName ∈ mux.patterns := by
            by_contra absent
            have alsoNew :
                "/ready" ++ "/" ++ readyzCheckName ∉
                  "/ready" :: mux.patterns := by
              simp only [List.mem_cons, different, absent, or_self,
                not_false_eq_true]
            rw [handle_ok_iff.mpr ⟨alsoNew, rfl⟩] at second
            cases second
          simp only [ServeMux.Free, registered, not_true_eq_false, and_false,
            false_and, reduceCtorEq]
      | ok last =>
          obtain ⟨alsoNew, rfl⟩ := handle_ok_iff.mp second
          have absent :
              "/ready" ++ "/" ++ readyzCheckName ∉ mux.patterns := by
            intro member
            exact alsoNew (List.mem_cons_of_mem _ member)
          simp only [ServeMux.Free, isNew, absent, not_false_eq_true,
            and_self, true_and, Except.ok.injEq, eq_comm]

/-- The caches count as synced exactly if none is reported otherwise. -/
theorem checkCacheSync_ok_iff {informers : List (String × Bool)} :
    checkCacheSync informers = .ok () ↔
      ∀ informer, (informer, false) ∉ informers := by
  induction informers with
  | nil => simp [checkCacheSync]
  | cons first rest inductionHypothesis =>
      obtain ⟨informer, synced⟩ := first
      cases synced with
      | false =>
          simp only [checkCacheSync, reduceCtorEq, false_iff]
          intro none
          exact none informer (by simp)
      | true => simpa [checkCacheSync] using inductionHypothesis

/-- A discoverer can be made exactly for an identified node. -/
theorem exists_newDiscoverer_iff {runtime : RuntimeConfig} :
    (∃ discoverer, newDiscoverer runtime = .ok discoverer) ↔
      runtime.node.Identified := by
  unfold newDiscoverer generateOwnerReference generateNodeSelector
    Node.Identified
  by_cases noName : runtime.node.name = ""
  · simp [noName]
  · by_cases noUID : runtime.node.uid = ""
    · simp [noName, noUID]
    · cases found : runtime.node.labels.lookup hostnameLabel with
      | none =>
          by_cases noLabels : runtime.node.labels.entries = []
          · simp [noName, noUID, noLabels]
          · simp [noName, noUID, noLabels]
      | some hostname =>
          have labelled : runtime.node.labels.entries ≠ [] := by
            intro noLabels
            rw [AList.lookup, noLabels] at found
            cases found
          simp [noName, noUID, labelled]

/-- The last part of an initialisation needs free paths and synced caches. -/
theorem installAndSync_ok_iff
    {arguments : ControllerArguments}
    {config : ControllerConfig}
    {outcomes : StartOutcomes}
    {discoverer : Discoverer}
    {mux : ServeMux} :
    (∃ ended,
        installAndSync arguments config outcomes discoverer mux =
          .ok ended) ↔
      mux.Free ∧ ∀ informer, (informer, false) ∉ outcomes.cacheSync := by
  rw [← checkCacheSync_ok_iff]
  unfold installAndSync
  cases installed : installPathHandler mux "/ready" [readyzCheckName] with
  | error abort =>
      have taken : ¬ mux.Free := by
        intro free
        rw [installPathHandler_ok_iff.mpr ⟨free, rfl⟩] at installed
        cases installed
      simp [taken]
  | ok after =>
      have free := (installPathHandler_ok_iff.mp installed).1
      cases synced : checkCacheSync outcomes.cacheSync with
      | error abort => simp
      | ok done => simp [free]

/--
An initialisation reaches its loop exactly if everything goes well and the
paths of its readiness handler are free.
-/
theorem exists_startLocalController_iff
    {arguments : ControllerArguments}
    {config : ControllerConfig}
    {outcomes : StartOutcomes}
    {mux : ServeMux} :
    (∃ ended,
        startLocalController arguments config outcomes mux = .ok ended) ↔
      config.Startable arguments outcomes ∧ mux.Free := by
  unfold startLocalController
  cases volumeUtil : outcomes.newVolumeUtil with
  | error err =>
      constructor
      · rintro ⟨_, ended⟩
        cases ended
      · intro startable
        rw [startable.1.volumeUtil] at volumeUtil
        cases volumeUtil
  | ok _ =>
      cases jobs :
          (if config.values.useJobForCleaning then
            outcomes.newJobController else .ok ()) with
      | error err =>
          constructor
          · rintro ⟨_, ended⟩
            cases ended
          · intro startable
            split at jobs
            · rename_i useJob
              rw [startable.1.jobController useJob] at jobs
              cases jobs
            · cases jobs
      | ok _ =>
          have jobController :
              config.values.useJobForCleaning = true →
              outcomes.newJobController = .ok () := by
            intro useJob
            rw [if_pos useJob] at jobs
            exact jobs
          cases made : newDiscoverer (arguments.runtimeConfig config) with
          | error err =>
              constructor
              · rintro ⟨_, ended⟩
                cases ended
              · intro startable
                have identified :
                    (arguments.runtimeConfig config).node.Identified :=
                  startable.1.identified
                obtain ⟨discoverer, alsoMade⟩ :=
                  exists_newDiscoverer_iff.mpr identified
                rw [alsoMade] at made
                cases made
          | ok discoverer =>
              have identified : arguments.node.Identified :=
                exists_newDiscoverer_iff.mp ⟨discoverer, made⟩
              simp only [installAndSync_ok_iff]
              constructor
              · intro ended
                exact ⟨⟨volumeUtil, jobController, identified, ended.2⟩,
                  ended.1⟩
              · intro startable
                exact ⟨startable.2, startable.1.synced⟩

/-- An initialisation that reaches its loop has taken the paths. -/
theorem not_free_of_startLocalController
    {arguments : ControllerArguments}
    {config : ControllerConfig}
    {outcomes : StartOutcomes}
    {mux after : ServeMux}
    {started : ControllerInstance}
    (ended :
      startLocalController arguments config outcomes mux =
        .ok (started, after)) :
    ¬ after.Free := by
  obtain ⟨discoverer, lastPart⟩ :
      ∃ discoverer,
        installAndSync arguments config outcomes discoverer mux =
          .ok (started, after) := by
    unfold startLocalController at ended
    split at ended
    · cases ended
    · split at ended
      · cases ended
      · split at ended
        · cases ended
        · exact ⟨_, ended⟩
  unfold installAndSync at lastPart
  cases installed : installPathHandler mux "/ready" [readyzCheckName] with
  | error abort =>
      rw [installed] at lastPart
      cases lastPart
  | ok registered =>
      rw [installed] at lastPart
      simp only at lastPart
      split at lastPart
      · cases lastPart
      · cases lastPart
        rw [(installPathHandler_ok_iff.mp installed).2]
        intro free
        exact free.1 (by simp)

/--
For every list of received configurations and whatever the library calls
return, all instances reach their loops exactly if no configuration has been
received, the first instance finds everything it needs, and nothing else has
registered the paths of its readiness handler.
-/
theorem exists_runInstances_iff
    (arguments : ControllerArguments)
    (config : ControllerConfig)
    (outcomes : StartOutcomes)
    (updates : List (ControllerConfig × StartOutcomes))
    (mux : ServeMux) :
    (∃ ended,
        runInstances arguments ((config, outcomes) :: updates) mux =
          .ok ended) ↔
      updates = [] ∧ config.Startable arguments outcomes ∧ mux.Free := by
  rw [← exists_startLocalController_iff, runInstances]
  cases first : startLocalController arguments config outcomes mux with
  | error abort => simp
  | ok ended =>
      obtain ⟨started, after⟩ := ended
      cases updates with
      | nil => simp [runInstances]
      | cons update rest =>
          have taken := not_free_of_startLocalController first
          have second :
              ¬ ∃ ended,
                startLocalController arguments update.1 update.2 after =
                  .ok ended := by
            rw [exists_startLocalController_iff]
            intro startable
            exact taken startable.2
          cases again :
              startLocalController arguments update.1 update.2 after with
          | error abort => simp [runInstances, again]
          | ok ended => exact (second ⟨ended, again⟩).elim

/-- A controller on the sample node. -/
def sampleArguments : ControllerArguments where
  node := sampleNode
  namespaceName := "default"
  jobImage := "cleaner"
  marshalAffinity := fun _ => .ok ""

/-- A configuration without classes. -/
def emptyConfig : ControllerConfig where
  storageClassConfig := ∅
  labelsForPV := ∅
  values := {
    nodeLabelsForPV := none
    useAlphaAPI := false
    useJobForCleaning := false
    jobTolerations := none
    minResyncPeriod := 300000000000
    useNodeNameOnly := false
    setPVOwnerRef := false
    removeNodeNotReadyTaint := false
    provisionerNotReadyNodeTaintKey := "" }

/-- No pattern is registered; the handlers register theirs in one file. -/
def freshMux : ServeMux where
  registeredAt := fun pattern =>
    if pattern = "/ready" then "healthz.go:198" else "healthz.go:210"
  patterns := []

/-- Library calls that all succeed. -/
def smoothOutcomes : StartOutcomes where
  newVolumeUtil := .ok ()
  newJobController := .ok ()
  cacheSync := []

/-- The instance for the first update panics although nothing else goes wrong. -/
theorem reload_panics :
    emptyConfig.Startable sampleArguments smoothOutcomes ∧
      runInstances sampleArguments
          [(emptyConfig, smoothOutcomes), (emptyConfig, smoothOutcomes)]
          freshMux =
        .error (.panic ("pattern \"/ready\" (registered at healthz.go:198) " ++
          "conflicts with pattern \"/ready\" (registered at " ++
          "healthz.go:198):\n/ready matches the same requests as " ++
          "/ready")) := by
  have identified : sampleNode.Identified :=
    ⟨by decide, by decide, ⟨_, rfl⟩⟩
  have synced : ∀ informer, (informer, false) ∉ smoothOutcomes.cacheSync := by
    simp [smoothOutcomes]
  exact ⟨⟨rfl, nofun, identified, synced⟩, rfl⟩

end LocalProvisioner

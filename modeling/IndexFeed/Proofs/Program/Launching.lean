import IndexFeed.Program
import IndexFeed.Proofs.CommandLine.Precedence
import IndexFeed.Proofs.Queue.Attachment

/-!
# Workers that are launched

A driver creates a pair of queues and launches a worker with the two ids on its command line.  The ids
go through the options of the command line, the variables of the environment and the defaults before
the worker has the names of its queues, and come out as they went in.  Once the worker has its log, it
attaches to the queues of its driver, and serves them for as long as there is room for its replies.
However it ends, with an error, in the middle of its work or before it has started, it leaves both
queues behind.
-/

set_option autoImplicit false

namespace IndexFeed.Program

open CommandLine (Invocation Argument Given launch)
open Queue
open Queue.Options (receiveTimeoutVariable)

variable {words : List String} {env : Environment} {now : Log.Moment} {w : World} {m : Memory}
  {i : Invocation} {id : String} {n : UInt32} {seconds : Option UInt64} {timeouts : Option UInt32}
  {files : FileTree} {queues : Store} {o : Options} {p : Pair} {events : List Event}

/-! ## What a worker leaves behind -/

/-- A worker that has attached leaves the queues as its run leaves them: dropping its handles changes
nothing. -/
theorem work_of_attach (hattach : Pair.attach queues o = (.ok p, events)) :
    let served := Worker.run o p queues
    (work queues o).1 = served.2.1 ∧
      (work queues o).2.ending.code = if served.1.isOk then some 0 else some 1 := by
  intro served
  rcases hserved : Worker.run o p queues with ⟨e | report, left, serving⟩
  all_goals
    have hdrop := Pair.drop_of_attach hattach left
    simp only [work, hattach, hserved, served]
    exact ⟨hdrop, rfl⟩

theorem keeps_work (queues : Store) (o : Options) : queues.Keeps (work queues o).1 := by
  rcases hattach : Pair.attach queues o with ⟨e | p, events⟩
  · simp only [work, hattach]
    exact .refl queues
  · rw [(work_of_attach hattach).1]
    exact Worker.keeps_run o p queues

theorem keeps_perform (m : Memory) (action : CommandLine.Action) (env : Environment) (w : World) :
    w.queues.Keeps (perform m action env w).1.queues := by
  cases action with
  | parse | count => exact .refl w.queues
  | worker => exact keeps_work w.queues _

/-- Whatever the program is asked to do, and however it ends, the names of queues stay and lead to
queues with the same limits. -/
theorem keeps_queues (words : List String) (env : Environment) (now : Log.Moment) (w : World)
    (m : Memory) : w.queues.Keeps (run words env now w m).world.queues := by
  unfold run
  split
  · exact .refl w.queues
  · next i _ =>
    dsimp only
    split
    · exact .refl w.queues
    · next files _ =>
      split
      · exact .refl w.queues
      · exact keeps_perform m i.action env { w with files }

/-! ## What a worker finds -/

/-- The ids on the command line are those of the worker's options. -/
theorem ids_of_mem (hread : Invocation.read env words = .ok i)
    (haction : i.action = .worker id n seconds timeouts)
    (hdriver : Argument.driverId.assignment o.driverId ∈ words)
    (hworker : Argument.workerId.assignment (Decimal.text o.workerId.toNat) ∈ words) :
    (workerOptions env id n seconds timeouts).1.driverId = o.driverId ∧
      (workerOptions env id n seconds timeouts).1.workerId = o.workerId :=
  ⟨Invocation.driverId_of_mem hdriver hread haction,
    Invocation.workerId_of_mem (Given.number32?_text o.workerId) hworker hread haction⟩

/-- A run that has its log does what its worker does. -/
theorem run_of_attach (hread : Invocation.read env words = .ok i)
    (haction : i.action = .worker id n seconds timeouts)
    (hlog : openLog (i.logSettings env) now w.files = .ok files)
    (hfilter : (i.logSettings env).fault? ≠ some .insideCharacter)
    (hattach : Pair.attach w.queues (workerOptions env id n seconds timeouts).1 = (.ok p, events)) :
    let served := Worker.run (workerOptions env id n seconds timeouts).1 p w.queues
    (run words env now w m).world = ⟨files, served.2.1⟩ ∧
      (run words env now w m).code = if served.1.isOk then some 0 else some 1 := by
  intro served
  obtain ⟨hleft, hcode⟩ := work_of_attach hattach
  simp only [run, hread, hlog, if_neg hfilter, haction, perform]
  exact ⟨by rw [hleft], hcode⟩

/-- The command line that gives the ids and nothing else is accepted, unless the environment gives a
time to wait that is no number. -/
theorem read_launch_iff (env : Environment) (id : String) (n : UInt32) :
    (∃ i seconds, Invocation.read env (launch id n) = .ok i ∧ i.action = .worker id n seconds none) ↔
      ∀ value, env.lookup receiveTimeoutVariable = some value →
        (Given.number64? value).isSome := by
  rw [Invocation.read_launch]
  cases env.lookup receiveTimeoutVariable with
  | none => exact iff_of_true ⟨_, none, rfl, rfl⟩ nofun
  | some value =>
    simp only [Option.some.injEq, forall_eq']
    cases Given.number64? value with
    | none => exact iff_of_false nofun nofun
    | some seconds => exact iff_of_true ⟨_, some seconds, rfl, rfl⟩ rfl

/-- **A worker that is launched finds the queues of its driver.**  Once a driver has created a pair,
the names that its options give lead to the two queues, which have the limit that it has asked for.
The command line that gives the ids of the driver and of the worker is accepted in every environment
but one whose time to wait is no number.  Whatever else stands on a command line that is accepted, and
whatever the environment says: a worker whose ids stand there, and that gets its log, attaches to just
these two queues, each in its direction and with the limit of the driver.  Then it serves them: where
the queue to the driver has room for the announcement and a reply to every message that waits, so that
the worker is not held up there, the run leaves what the steps of the worker lead to, and ends as they
do.  Nothing takes the two queues away that the program does, whatever it is asked to do and however it
ends, and nothing that a driver and a worker do while they talk, wherever they stop: the same two queues
can be found and opened. -/
theorem launched_worker_finds_queues {kernel : Kernel} {s s' : Store} {created : List Event}
    (hcreate : Pair.create s o kernel = (.ok p, s', created)) :
    (Pair.Found s' o p ∧ p.toWorker.maxMessageSize = o.maxMessageSize.toNat ∧
      p.toDriver.maxMessageSize = o.maxMessageSize.toNat) ∧
    (∀ env : Environment,
      (∃ i seconds, Invocation.read env (launch o.driverId o.workerId) = .ok i ∧
        i.action = .worker o.driverId o.workerId seconds none) ↔
      ∀ value, env.lookup receiveTimeoutVariable = some value →
        (Given.number64? value).isSome) ∧
    (∀ env words i id n seconds timeouts now w m files, Invocation.read env words = .ok i →
      i.action = .worker id n seconds timeouts →
      Argument.driverId.assignment o.driverId ∈ words →
      Argument.workerId.assignment (Decimal.text o.workerId.toNat) ∈ words →
      openLog (i.logSettings env) now w.files = .ok files →
      (i.logSettings env).fault? ≠ some .insideCharacter →
      Pair.Found w.queues o p →
      let o' := (workerOptions env id n seconds timeouts).1
      let served := Worker.run o' p.otherEnd w.queues
      (∃ attached, Pair.attach w.queues o' = (.ok p.otherEnd, attached)) ∧
        (w.queues.HasRoom p.toDriver.queue ((w.queues.pending p.toWorker.queue).length + 1) →
          (∃ y, Conversation.RunsTo o' p p.otherEnd { store := w.queues, phase := .attached } y
              served.1 ∧ y.store = served.2.1) ∧
            (run words env now w m).world = ⟨files, served.2.1⟩ ∧
            (run words env now w m).code = if served.1.isOk then some 0 else some 1)) ∧
    (∀ words env now w m, Pair.Found w.queues o p →
      Pair.Found (run words env now w m).world.queues o p ∧
        ∃ opened, Pair.attach (run words env now w m).world.queues o = (.ok p.otherEnd, opened)) ∧
    ∀ o' d w x y, Pair.Found x.store o p → Conversation.Steps o' d w x y →
      Pair.Found y.store o p ∧ ∃ opened, Pair.attach y.store o = (.ok p.otherEnd, opened) := by
  have hne := (Pair.create_spec hcreate).1.ne
  refine ⟨Pair.found_of_create hcreate, fun env => read_launch_iff env _ _, ?_, ?_, ?_⟩
  · intro env words i id n seconds timeouts now w m files hread haction hdriver hworker hlog hfilter
      hfound o' served
    obtain ⟨hid, hn⟩ := ids_of_mem hread haction hdriver hworker
    have hattach := (hfound.of_ids hid hn).attach
    exact ⟨⟨_, hattach⟩, fun hroom =>
      ⟨Conversation.runsTo_of_run (x := { store := w.queues, phase := .attached })
        (hfound.stands_otherEnd hne) rfl hroom, run_of_attach hread haction hlog hfilter hattach⟩⟩
  · intro words env now w m hfound
    have hfound' := hfound.of_keeps (keeps_queues words env now w m)
    exact ⟨hfound', _, hfound'.attach⟩
  · intro o' d w x y hfound hsteps
    have hfound' := hfound.of_keeps hsteps.keeps
    exact ⟨hfound', _, hfound'.attach⟩

/-- The options of a driver that asks for small queues. -/
def narrow : Options := { driverId := "run", maxMessages := 2, maxMessageSize := 64 }

/-- The driver's end of the pair that they give. -/
def narrowPair : Pair :=
  ⟨⟨0, "/run-w0-to-worker", .createOnly, 64⟩, ⟨1, "/run-w0-to-driver", .createOnly, 64⟩⟩

/-- Its queues with some messages in them, in a world without files but with a null device. -/
def narrowWorld (toWorker toDriver : List Bytes) : World where
  files := ⟨[([], .directory), (["dev"], .directory), (["dev", "null"], .device)], []⟩
  queues :=
    { queues := [⟨2, 64, toWorker⟩, ⟨2, 64, toDriver⟩]
      names := [("/run-w0-to-driver", 1), ("/run-w0-to-worker", 0)] }

/-- Variables that name another driver, another worker and another limit. -/
def misleading : Environment :=
  [(Options.driverIdVariable, "other"), (Options.workerIdVariable, "7"),
    (Options.maxMessageSizeVariable, "8")]

/-- The end of the run as a message. -/
def shutdown : Bytes := Store.encode Task.shutdown.toJson

/-- In an environment that says otherwise, a worker takes the end of the run from its own driver, to
which it has announced itself, and the driver's queues are still there. -/
theorem launched_worker_is_not_misled :
    let outcome := run (launch "run" 0) misleading ⟨2026, 1, 1, 0⟩ (narrowWorld [shutdown] [])
    (∃ created, Pair.create {} narrow = (.ok narrowPair, (narrowWorld [] []).queues, created)) ∧
      outcome.code = some 0 ∧ outcome.world = narrowWorld [] [(Reply.ready 0).bytes] ∧
      ∃ opened, Pair.attach outcome.world.queues narrow = (.ok narrowPair.otherEnd, opened) := by
  intro outcome
  have hpair : (Pair.create {} narrow).1 = .ok narrowPair := by decide +kernel
  have hqueues : (Pair.create {} narrow).2.1 = (narrowWorld [] []).queues := by decide +kernel
  have hcreate : Pair.create {} narrow =
      (.ok narrowPair, (narrowWorld [] []).queues, (Pair.create {} narrow).2.2) :=
    Prod.ext hpair (Prod.ext hqueues rfl)
  obtain ⟨⟨hfound, -, -⟩, -, hserves, hstays, -⟩ := launched_worker_finds_queues hcreate
  have hfound : Pair.Found (narrowWorld [shutdown] []).queues narrow narrowPair :=
    hfound.of_keeps (Store.keeps_setPending _ 0 _)
  have hread : Invocation.read misleading (launch "run" 0) =
      .ok ⟨0, false, none, .worker "run" 0 none none⟩ := Invocation.read_launch misleading "run" 0
  obtain ⟨-, hruns⟩ := hserves _ _ _ _ _ _ _ ⟨2026, 1, 1, 0⟩ _ {} _ hread rfl
    (by simp [launch, narrow]) (by simp [launch, narrow]) rfl (by decide) hfound
  obtain ⟨-, hworld, hcode⟩ := hruns ⟨_, rfl, by decide +kernel⟩
  have hserved : (Worker.run (workerOptions misleading "run" 0 none none).1 narrowPair.otherEnd
      (narrowWorld [shutdown] []).queues).1.isOk = true := by decide +kernel
  have hleft : (Worker.run (workerOptions misleading "run" 0 none none).1 narrowPair.otherEnd
      (narrowWorld [shutdown] []).queues).2.1 =
        (narrowWorld [] [(Reply.ready 0).bytes]).queues := by decide +kernel
  rw [hserved] at hcode
  rw [hleft] at hworld
  exact ⟨⟨_, hcreate⟩, hcode, hworld, (hstays _ misleading ⟨2026, 1, 1, 0⟩ _ {} hfound).2⟩

/-- A log file in a place that is no directory. -/
def unloggable : Environment := [(Log.Settings.fileVariable, "/dev/null/w.log")]

/-- A log file that cannot be opened keeps a worker out, though its command line is accepted: it
crashes, and its driver hears nothing from it. -/
theorem unloggable_worker_stays_out :
    let w := narrowWorld [shutdown] []
    let outcome := run (launch "run" 0) unloggable ⟨2026, 1, 1, 0⟩ w
    let o := (workerOptions unloggable "run" 0 none none).1
    (Pair.create {} narrow).1 = .ok narrowPair ∧
      (Pair.create {} narrow).2.1.push 0 shutdown = w.queues ∧
      Invocation.read unloggable (launch "run" 0) = .ok ⟨0, false, none, .worker "run" 0 none none⟩ ∧
      outcome.code = some 101 ∧ outcome.world = w ∧
      (Worker.run o narrowPair.otherEnd w.queues).2.1 ≠ outcome.world.queues := by
  decide +kernel

end IndexFeed.Program

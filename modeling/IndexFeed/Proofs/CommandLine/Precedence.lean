import IndexFeed.CommandLine.Invocation
import IndexFeed.Proofs.Results
import IndexFeed.Proofs.Text.Decimal

/-!
# What the command line says first

An option is given once, and the environment stands in only for what is missing.  So whatever has been
given stays as it is to the end of the command line and beyond: the ids of a worker that stand on the
command line are the ids of its action, wherever they stand, and nothing else that is given and no
variable makes a difference to them.
-/

set_option autoImplicit false

namespace IndexFeed.CommandLine

open Queue.Options (receiveTimeoutVariable)

variable {env : Environment} {scope : Scope} {c : Subcommand} {g g' : Given} {s t : Scan}
  {a : Argument} {word value : String} {words rest : List String} {P : Given → Prop}

/-! ## What stays -/

namespace Given

/-- A property of what has been given that nothing takes away which is given later. -/
structure Lasting (P : Given → Prop) : Prop where
  assign : ∀ {g g' : Given} {a : Argument} {value : String},
    P g → g.assign a value = .ok g' → P g'
  switch : ∀ {scope : Scope} {g g' : Given} {a : Argument}, P g → g.switch scope a = .ok g' → P g'

/-- An argument takes a value once, and only one of its form. -/
theorem assign_ok (h : g.assign a value = .ok g') :
    g.has a = false ∧ g.put? value a = some g' := by
  unfold assign at h
  split at h
  · cases h
  · next hfree =>
    split at h
    · cases h
    · split at h
      · next hput =>
        cases h
        exact ⟨Bool.eq_false_iff.2 hfree, hput⟩
      · cases h

/-- A value goes to the argument that it is given to, and to no id but that one. -/
theorem ids_of_put? (h : g.put? value a = some g') :
    (a ≠ .driverId → g'.driverId = g.driverId) ∧ (a ≠ .workerId → g'.workerId = g.workerId) := by
  cases a with
  | database =>
    cases h
    exact ⟨fun _ => rfl, fun _ => rfl⟩
  | driverId =>
    cases h
    exact ⟨fun hne => absurd rfl hne, fun _ => rfl⟩
  | workerId =>
    obtain ⟨n, -, rfl⟩ := Option.map_eq_some_iff.1 h
    exact ⟨fun _ => rfl, fun hne => absurd rfl hne⟩
  | logFormat | batchSize | bufferSize | receiveTimeout | maxIdleTimeouts =>
    obtain ⟨n, -, rfl⟩ := Option.map_eq_some_iff.1 h
    exact ⟨fun _ => rfl, fun _ => rfl⟩
  | verbose | quiet | split | json | help | version => cases h

/-- An argument without a value is no id. -/
theorem ids_of_switch (h : g.switch scope a = .ok g') :
    g'.driverId = g.driverId ∧ g'.workerId = g.workerId := by
  cases a with
  | verbose =>
    cases h
    exact ⟨rfl, rfl⟩
  | help | version => cases h
  | quiet | split | json =>
    simp only [switch] at h
    split at h
    · cases h
    · cases h
      exact ⟨rfl, rfl⟩
  | logFormat | database | batchSize | bufferSize | driverId | workerId | receiveTimeout
  | maxIdleTimeouts =>
    simp only [switch] at h
    split at h <;> cases h

theorem lasting_driverId (id : String) : Lasting fun g => g.driverId = some id where
  assign {g g' a value} hg h := by
    obtain ⟨hfree, hput⟩ := assign_ok h
    have hne : a ≠ .driverId := by
      rintro rfl
      simp [has, hg] at hfree
    exact ((ids_of_put? hput).1 hne).trans hg
  switch hg h := (ids_of_switch h).1.trans hg

theorem lasting_workerId (n : UInt32) : Lasting fun g => g.workerId = some n where
  assign {g g' a value} hg h := by
    obtain ⟨hfree, hput⟩ := assign_ok h
    have hne : a ≠ .workerId := by
      rintro rfl
      simp [has, hg] at hfree
    exact ((ids_of_put? hput).2 hne).trans hg
  switch hg h := (ids_of_switch h).2.trans hg

/-- The environment takes nothing away. -/
theorem Lasting.withEnvironment (hP : Lasting P) (hg : P g)
    (h : g.withEnvironment scope env = .ok g') : P g' := by
  unfold Given.withEnvironment at h
  generalize scope.options = arguments at h
  induction arguments generalizing g with
  | nil =>
    cases h
    exact hg
  | cons a arguments ih =>
    rw [List.foldlM_cons] at h
    obtain ⟨g₁, hstep, hrest⟩ := bind_eq_ok_iff.1 h
    refine ih ?_ hrest
    split at hstep
    · cases hstep
      exact hg
    · split at hstep
      · exact hP.assign hg hstep
      · cases hstep
        exact hg

end Given

open Given (Lasting)

/-! ## Reading on -/

namespace Scan

section

variable (hP : Lasting P) (hs : P s.given)
include hP hs

theorem lasts_settle (h : s.settle = .ok t) : P t.given := by
  unfold settle at h
  split at h
  · cases h
    exact hs
  · cases h
  · obtain ⟨g, hassign, hrest⟩ := bind_eq_ok_iff.1 h
    cases hrest
    exact hP.assign hs hassign

theorem lasts_await (h : s.await a = .ok t) : P t.given := by
  obtain ⟨s₁, hsettle, hrest⟩ := bind_eq_ok_iff.1 h
  have hlasts : P s₁.given := lasts_settle hP hs hsettle
  cases hrest
  exact hlasts

theorem lasts_assign (h : s.assign a value = .ok t) : P t.given := by
  obtain ⟨s₁, hsettle, hrest⟩ := bind_eq_ok_iff.1 h
  obtain ⟨g, hassign, hrest⟩ := bind_eq_ok_iff.1 hrest
  cases hrest
  exact hP.assign (lasts_settle hP hs hsettle) hassign

theorem lasts_switch (h : s.switch scope a = .ok t) : P t.given := by
  obtain ⟨s₁, hsettle, hrest⟩ := bind_eq_ok_iff.1 h
  obtain ⟨g, hswitch, hrest⟩ := bind_eq_ok_iff.1 hrest
  cases hrest
  exact hP.switch (lasts_settle hP hs hsettle) hswitch

theorem lasts_readLong {name : String} {value : Option String}
    (h : s.readLong scope name value = .ok t) : P t.given := by
  unfold readLong at h
  split at h
  · cases h
  · split at h
    · exact lasts_assign hP hs h
    · exact lasts_await hP hs h
    · cases h
    · exact lasts_switch hP hs h

theorem lasts_readOperand (h : s.readOperand scope word = .ok t) : P t.given := by
  unfold readOperand at h
  split at h
  · obtain ⟨s₁, hsettle, hrest⟩ := bind_eq_ok_iff.1 h
    have hlasts : P s₁.given := lasts_settle hP hs hsettle
    cases hrest
    exact hlasts
  · cases h

end

theorem lasts_readShort (hP : Lasting P) {letters : List Char} (hs : P s.given)
    (h : s.readShort scope letters = .ok t) : P t.given := by
  induction letters generalizing s with
  | nil =>
    cases h
    exact hs
  | cons letter letters ih =>
    rw [readShort] at h
    split at h
    · cases h
    · split at h
      · split at h
        · exact lasts_await hP hs h
        · exact lasts_assign hP hs h
        · exact lasts_assign hP hs h
      · obtain ⟨s₁, hswitch, hrest⟩ := bind_eq_ok_iff.1 h
        exact ih (lasts_switch hP hs hswitch) hrest

/-- One word more takes nothing away. -/
theorem lasts_readWord (hP : Lasting P) (hs : P s.given) (h : s.readWord scope word = .ok t) :
    P t.given := by
  unfold readWord at h
  split at h
  · exact lasts_readOperand hP hs h
  · split at h
    · cases h
      exact hs
    · exact lasts_readLong hP hs h
    · exact lasts_readShort hP hs h
    · split at h
      · cases h
        exact hs
      · exact lasts_readOperand hP hs h

/-- Behind a subcommand all words belong to it. -/
theorem readWords_cons : readWords (some c) s (word :: words) =
    (s.readWord (some c) word).bind fun s => readWords (some c) s words := rfl

theorem lasts_readWords {behind : Option (Subcommand × List String)} (hP : Lasting P)
    (hs : P s.given) (h : readWords (some c) s words = .ok (t, behind)) : P t.given := by
  induction words generalizing s with
  | nil =>
    cases h
    exact hs
  | cons word words ih =>
    rw [readWords_cons] at h
    obtain ⟨s₁, hword, hrest⟩ := bind_eq_ok_iff.1 h
    exact ih (lasts_readWord hP hs hword) hrest

/-- What a word gives wherever it is read has been given once all words have been read. -/
theorem given_of_mem {behind : Option (Subcommand × List String)} (hP : Lasting P)
    (hgives : ∀ s t, readWord (some c) s word = .ok t → P t.given) (hmem : word ∈ words)
    (h : readWords (some c) s words = .ok (t, behind)) : P t.given := by
  induction words generalizing s with
  | nil => cases hmem
  | cons word' words ih =>
    rw [readWords_cons] at h
    obtain ⟨s₁, hword, hrest⟩ := bind_eq_ok_iff.1 h
    rcases List.mem_cons.1 hmem with rfl | hmem
    · exact lasts_readWords hP (hgives _ _ hword) hrest
    · exact ih hmem hrest

end Scan

/-! ## Options with their values -/

/-- The word that gives an option a value. -/
def Argument.assignment (a : Argument) (value : String) : String := a.spelling ++ "=" ++ value

example :
    Argument.driverId.assignment "-a=b" = "--driver-id=-a=b" ∧
      Argument.workerId.assignment "7" = "--worker-id=7" := by
  decide

/-- No subcommand is called like an option. -/
theorem Argument.named?_assignment {name : String} (hlong : a.long? = some name) (value : String) :
    Subcommand.named? (a.assignment value) = none := by
  have hne (c : Subcommand) : (c.name == a.assignment value) = false := by
    refine beq_eq_false_iff_ne.2 fun hsame => ?_
    have hhead := congrArg (fun word => word.toList.head?) hsame
    simp only [Argument.assignment, Argument.spelling, hlong] at hhead
    cases c <;> simp [Subcommand.name] at hhead
  simp [Subcommand.named?, hne]

/-- The name of an option reaches up to the first equals sign, so a value may hold more of them. -/
theorem Form.of_long {name : String} (hname : '=' ∉ name.toList) (value : String) :
    Form.of ("--" ++ name ++ "=" ++ value) = .long name (some value) := by
  have hword : ("--" ++ name ++ "=" ++ value).toList =
      '-' :: '-' :: (name.toList ++ '=' :: value.toList) := by
    simp
  have hplain : ∀ x ∈ name.toList, (x != '=') = true := fun x hx =>
    bne_iff_ne.2 fun hxe => hname (hxe ▸ hx)
  have htake : (name.toList ++ '=' :: value.toList).takeWhile (· != '=') = name.toList := by
    rw [List.takeWhile_append_of_pos hplain, List.takeWhile_cons_of_neg (by simp), List.append_nil]
  have hdrop : (name.toList ++ '=' :: value.toList).dropWhile (· != '=') = '=' :: value.toList := by
    rw [List.dropWhile_append_of_pos hplain, List.dropWhile_cons_of_neg (by simp)]
  obtain ⟨x, xs, hrest⟩ := List.exists_cons_of_ne_nil
    (show name.toList ++ '=' :: value.toList ≠ [] by simp)
  rw [hrest] at hword htake hdrop
  simp only [Form.of, hword, htake, hdrop, String.ofList_toList]

namespace Scan

variable {name : String}

/-- An option and its value in one word. -/
theorem readWord_assignment (hlong : a.long? = some name) (hname : '=' ∉ name.toList)
    (hs : s.operandsOnly = false) :
    s.readWord scope (a.assignment value) = s.readLong scope name (some value) := by
  have hform : Form.of (a.assignment value) = .long name (some value) := by
    rw [Argument.assignment, Argument.spelling, hlong]
    exact Form.of_long hname value
  simp only [readWord, hs, Bool.false_eq_true, if_false, hform]

/-- Where no operand can stand, an option in one word with its value gets the value. -/
theorem assign_of_readWord (hlong : a.long? = some name) (hname : '=' ∉ name.toList)
    (hfind : scope.long? name = some a) (htakes : a.takesValue = true)
    (hoperand : scope.hasOperand = false)
    (h : s.readWord scope (a.assignment value) = .ok t) :
    ∃ g, Given.assign g a value = .ok t.given := by
  cases hs : s.operandsOnly with
  | true => simp [readWord, hs, readOperand, hoperand] at h
  | false =>
    simp only [readWord_assignment hlong hname hs, readLong, hfind, htakes] at h
    obtain ⟨s₁, -, hrest⟩ := bind_eq_ok_iff.1 h
    obtain ⟨g, hassign, hrest⟩ := bind_eq_ok_iff.1 hrest
    cases hrest
    exact ⟨s₁.given, hassign⟩

/-- Where no operand can stand, an option that the scope does not have is refused. -/
theorem readWord_stray (hlong : a.long? = some name) (hname : '=' ∉ name.toList)
    (hfind : scope.long? name = none) (hoperand : scope.hasOperand = false) :
    s.readWord scope (a.assignment value) ≠ .ok t := by
  cases hs : s.operandsOnly with
  | true => simp [readWord, hs, readOperand, hoperand]
  | false => simp [readWord_assignment hlong hname hs, readLong, hfind]

/-- A word that is refused in front of the subcommand stands behind it. -/
theorem mem_behind (hstray : ∀ s t, readWord none s word ≠ .ok t)
    (hnamed : Subcommand.named? word = none) (hmem : word ∈ words)
    (h : readWords none s words = .ok (t, some (c, rest))) : word ∈ rest := by
  induction words generalizing s with
  | nil => cases hmem
  | cons word' words ih =>
    have hread (h : ((s.readWord none word').bind fun s => readWords none s words) =
        .ok (t, some (c, rest))) : word ∈ rest := by
      obtain ⟨s₁, hword, hrest⟩ := bind_eq_ok_iff.1 h
      rcases List.mem_cons.1 hmem with rfl | hmem
      · exact absurd hword (hstray _ _)
      · exact ih hmem hrest
    rw [readWords] at h
    split at h
    · split at h
      · cases h
      · split at h
        · next hc =>
          cases h
          rcases List.mem_cons.1 hmem with rfl | hmem
          · rw [hnamed] at hc
            cases hc
          · exact hmem
        · exact hread h
    · exact hread h

end Scan

/-! ## The ids of a worker -/

namespace Invocation

variable {i : Invocation} {action : Action} {id : String} {n : UInt32} {seconds : Option UInt64}
  {timeouts : Option UInt32}

/-- How the part of a command line behind the subcommand is read. -/
theorem readAction_ok (h : readAction env c words = .ok (action, g)) :
    ∃ s behind t, Scan.readWords (some c) {} words = .ok (s, behind) ∧ s.settle = .ok t ∧
      t.given.withEnvironment (some c) env = .ok g ∧ actionOf c g = .ok action := by
  obtain ⟨⟨s, behind⟩, hwords, hrest⟩ := bind_eq_ok_iff.1 h
  obtain ⟨t, hsettle, hrest⟩ := bind_eq_ok_iff.1 hrest
  obtain ⟨g', henv, hrest⟩ := bind_eq_ok_iff.1 hrest
  obtain ⟨_, -, hrest⟩ := bind_eq_ok_iff.1 hrest
  obtain ⟨action', haction, hrest⟩ := bind_eq_ok_iff.1 hrest
  cases hrest
  exact ⟨s, behind, t, hwords, hsettle, henv, haction⟩

/-- A command line that makes sense has a subcommand, and an action behind it. -/
theorem read_ok (h : read env words = .ok i) :
    ∃ s c rest g, Scan.readWords none {} words = .ok (s, some (c, rest)) ∧
      readAction env c rest = .ok (i.action, g) := by
  obtain ⟨⟨s, sub⟩, hwords, hrest⟩ := bind_eq_ok_iff.1 h
  cases sub with
  | none =>
    obtain ⟨t, -, hrest⟩ := bind_eq_ok_iff.1 hrest
    cases hrest
  | some sub =>
    obtain ⟨c, rest⟩ := sub
    obtain ⟨⟨action, g⟩, haction, hrest⟩ := bind_eq_ok_iff.1 hrest
    obtain ⟨t, -, hrest⟩ := bind_eq_ok_iff.1 hrest
    obtain ⟨_, -, hrest⟩ := bind_eq_ok_iff.1 hrest
    cases hrest
    exact ⟨s, c, rest, g, hwords, haction⟩

theorem need_ok {α : Type} {v : Option α} {x : α} (h : need a v = .ok x) : v = some x := by
  cases v with
  | none => cases h
  | some y =>
    cases h
    rfl

/-- The ids of a worker are those that have been given in the end. -/
theorem actionOf_worker (h : actionOf c g = .ok (.worker id n seconds timeouts)) :
    c = .worker ∧ g.driverId = some id ∧ g.workerId = some n := by
  cases c with
  | parse | count =>
    obtain ⟨database, -, hrest⟩ := bind_eq_ok_iff.1 h
    cases hrest
  | worker =>
    obtain ⟨id', hid, hrest⟩ := bind_eq_ok_iff.1 h
    obtain ⟨n', hn, hrest⟩ := bind_eq_ok_iff.1 hrest
    cases hrest
    exact ⟨rfl, need_ok hid, need_ok hn⟩

/-- What an option of workers has been given on the command line has been given in the end. -/
theorem given_of_assignment {name : String} (hP : Lasting P) (hlong : a.long? = some name)
    (hname : '=' ∉ name.toList) (hworker : Scope.long? (some .worker) name = some a)
    (houter : Scope.long? none name = none) (htakes : a.takesValue = true)
    (hgives : ∀ g g' : Given, g.assign a value = .ok g' → P g')
    (hmem : a.assignment value ∈ words) (hread : read env words = .ok i)
    (haction : i.action = .worker id n seconds timeouts) :
    ∃ g, P g ∧ g.driverId = some id ∧ g.workerId = some n := by
  obtain ⟨s, c, rest, g, hwords, hbehind⟩ := read_ok hread
  obtain ⟨s', behind, t, hwords', hsettle, henv, hg⟩ := readAction_ok hbehind
  obtain ⟨rfl, hid, hn⟩ := actionOf_worker (hg.trans (congrArg Except.ok haction))
  have hrest : a.assignment value ∈ rest :=
    Scan.mem_behind (fun _ _ => Scan.readWord_stray hlong hname houter rfl)
      (Argument.named?_assignment hlong value) hmem hwords
  have hgiven : P s'.given := by
    refine Scan.given_of_mem hP (fun s t h => ?_) hrest hwords'
    obtain ⟨g, hassign⟩ := Scan.assign_of_readWord hlong hname hworker htakes rfl h
    exact hgives g t.given hassign
  exact ⟨g, hP.withEnvironment (Scan.lasts_settle hP hgiven hsettle) henv, hid, hn⟩

/-- An id that stands on the command line is the id of the worker, whatever the environment says. -/
theorem driverId_of_mem {id' : String} (hmem : Argument.driverId.assignment id' ∈ words)
    (hread : read env words = .ok i) (haction : i.action = .worker id n seconds timeouts) :
    id = id' := by
  have hgives (g g' : Given) (h : g.assign .driverId id' = .ok g') : g'.driverId = some id' := by
    obtain ⟨-, hput⟩ := Given.assign_ok h
    cases hput
    rfl
  obtain ⟨g, hid', hid, -⟩ := given_of_assignment (Given.lasting_driverId id') rfl (by decide) rfl rfl
    rfl hgives hmem hread haction
  exact Option.some.inj (hid.symm.trans hid')

/-- So it is with the number of a worker, however it is written. -/
theorem workerId_of_mem {n' : UInt32} (hvalue : Given.number32? value = some n')
    (hmem : Argument.workerId.assignment value ∈ words) (hread : read env words = .ok i)
    (haction : i.action = .worker id n seconds timeouts) : n = n' := by
  have hgives (g g' : Given) (h : g.assign .workerId value = .ok g') : g'.workerId = some n' := by
    obtain ⟨-, hput⟩ := Given.assign_ok h
    rw [Given.put?, hvalue] at hput
    cases hput
    rfl
  obtain ⟨g, hn', -, hn⟩ := given_of_assignment (Given.lasting_workerId n') rfl (by decide) rfl rfl
    rfl hgives hmem hread haction
  exact Option.some.inj (hn.symm.trans hn')

end Invocation

/-! ## A command line with nothing but the ids -/

/-- A number of 32 bits is read as it is written. -/
theorem Given.number32?_text (n : UInt32) : Given.number32? (Decimal.text n.toNat) = some n := by
  have hsmall : (0 : Int) ≤ n.toNat ∧ (n.toNat : Int) < 0x100000000 := by
    have hlt := n.toNat_lt
    omega
  simp only [number32?, Decimal.int?_text, if_pos hsmall, Int.toNat_natCast, UInt32.ofNat_toNat]

/-- The words that launch a worker with its ids. -/
def launch (id : String) (n : UInt32) : List String :=
  [Subcommand.worker.name, Argument.driverId.assignment id,
    Argument.workerId.assignment (Decimal.text n.toNat)]

theorem Scan.readWords_launch (id : String) (n : UInt32) :
    readWords (some .worker) {} (launch id n).tail =
      .ok ({ given := { driverId := some id, workerId := some n } }, none) := by
  have hlong : Argument.driverId.long? = some "driver-id" := rfl
  have hlong' : Argument.workerId.long? = some "worker-id" := rfl
  have hdriver : readWord (some .worker) {} (Argument.driverId.assignment id) =
      .ok { given := { driverId := some id } } := readWord_assignment hlong (by decide) rfl
  have hput : ({ driverId := some id } : Given).assign .workerId (Decimal.text n.toNat) =
      .ok { driverId := some id, workerId := some n } := by
    simp [Given.assign, Given.has, Given.put?, Given.number32?_text]
  have hworker : readWord (some .worker) { given := { driverId := some id } }
      (Argument.workerId.assignment (Decimal.text n.toNat)) =
        .ok { given := { driverId := some id, workerId := some n } } := by
    rw [readWord_assignment hlong' (by decide) rfl]
    exact congrArg (fun given => Except.bind given fun given => .ok ({ given } : Scan)) hput
  rw [launch, List.tail_cons, readWords_cons, hdriver]
  exact congrArg (fun read => Except.bind read fun s => readWords (some .worker) s []) hworker

/-- With both ids there, only the time to wait can still come from the environment. -/
theorem Given.withEnvironment_ids (env : Environment) (id : String) (n : UInt32) :
    ({ driverId := some id, workerId := some n } : Given).withEnvironment (some .worker) env =
      match env.lookup receiveTimeoutVariable with
      | none => .ok { driverId := some id, workerId := some n }
      | some value =>
        match number64? value with
        | some seconds =>
          .ok { driverId := some id, workerId := some n, receiveTimeout := some seconds }
        | none => .error (.unusableValue .receiveTimeout value) := by
  cases hlookup : env.lookup receiveTimeoutVariable with
  | none =>
    simp [withEnvironment, Scope.options, Scope.common, has, Argument.environmentName?, hlookup,
      bind, Except.bind, pure, Except.pure]
  | some value =>
    cases hvalue : number64? value with
    | none =>
      simp [withEnvironment, Scope.options, Scope.common, has, Argument.environmentName?, hlookup,
        assign, put?, hvalue, bind, Except.bind]
    | some seconds =>
      simp [withEnvironment, Scope.options, Scope.common, has, Argument.environmentName?, hlookup,
        assign, put?, hvalue, bind, Except.bind, pure, Except.pure]

/-- Of the variables only the time to wait can still make a difference to it. -/
theorem Invocation.read_launch (env : Environment) (id : String) (n : UInt32) :
    Invocation.read env (launch id n) =
      match env.lookup receiveTimeoutVariable with
      | none => .ok ⟨0, false, none, .worker id n none none⟩
      | some value =>
        match Given.number64? value with
        | some seconds => .ok ⟨0, false, none, .worker id n (some seconds) none⟩
        | none => .error (.unusableValue .receiveTimeout value) := by
  have hwords : Scan.readWords none {} (launch id n) =
      .ok ({}, some (.worker, (launch id n).tail)) := rfl
  have hgiven := Given.withEnvironment_ids env id n
  simp only [read, hwords, readAction, Scan.readWords_launch, bind, Except.bind, Scan.settle, hgiven]
  cases env.lookup receiveTimeoutVariable with
  | none => rfl
  | some value =>
    dsimp only
    cases Given.number64? value with
    | none => rfl
    | some seconds => rfl

end IndexFeed.CommandLine

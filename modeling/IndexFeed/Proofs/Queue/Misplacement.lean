import IndexFeed.Proofs.Json.Replacing
import IndexFeed.Proofs.Queue.Verdict

/-!
# Where an error about a task points

An error about shapes comes with a path to the part that does not fit.  For tasks the path is lost: a
task is put together from a tagged value that has been read before, and whatever does not fit then is
charged to the message as a whole.
-/

set_option autoImplicit false

namespace IndexFeed.Queue

open Json (Document Found Misfit Replaced Segment Tagged)

namespace Task

/-! ## Parts -/

/-- A part of a task to index. -/
inductive Part where
  | jobId
  | directory
  | file
  | command
  | output
  | argument (i : Nat)
  deriving DecidableEq, Repr

namespace Part

/-- The path to the part. -/
def path : Part → List Segment
  | .jobId => [.key "job_id"]
  | .directory => [.key "command", .key "directory"]
  | .file => [.key "command", .key "file"]
  | .command => [.key "command", .key "command"]
  | .output => [.key "command", .key "output"]
  | .argument i => [.key "command", .key "arguments", .item i]

/-- What messages say is expected there. -/
def expected : Part → String
  | .jobId => "u64"
  | _ => "a string"

/-- The kinds of values that can stand there. -/
def admits : Part → Json → Bool
  | .jobId, .number _ => true
  | .jobId, _ => false
  | .command, .null => true
  | .output, .null => true
  | _, .string _ => true
  | _, _ => false

/-- The misfit of a value of another kind. -/
def misfit (f : Part) (v : Json) : Misfit := .kind (.of v) f.expected

end Part

variable {f : Part} {v j j' : Json} {jobId : UInt64} {c : CompileCommand}

theorem bars_text (hv : ∀ s, v ≠ .string s) :
    Json.Shape.text.Bars [] v (.kind (.of v) "a string") := by
  refine Json.Shape.bars_here ?_
  cases v with
  | string s => exact absurd rfl (hv s)
  | null | bool | number | array | object => rfl

theorem bars_optional (hv : ∀ s, v ≠ .string s) (hnull : v ≠ .null) :
    Json.Shape.text.optional.Bars [] v (.kind (.of v) "a string") := by
  refine Json.Shape.bars_here ?_
  cases v with
  | null => exact absurd rfl hnull
  | string s => exact absurd rfl (hv s)
  | bool | number | array | object => rfl

theorem bars_natural (hv : ∀ x, v ≠ .number x) :
    (Json.Shape.natural "u64" 64).Bars [] v (.kind (.of v) "u64") := by
  refine Json.Shape.bars_here ?_
  cases v with
  | number x => exact absurd rfl (hv x)
  | null | bool | string | array | object => rfl

/-- A field of the command is barred in the record around it. -/
theorem bars_command {path : List Segment} {m : Misfit}
    (h : CompileCommand.shape.Bars path v m) : indexRecord.shape.Bars (.key "command" :: path) v m :=
  Json.Record.bars_field rfl fun _ => h.map

theorem ne_string_of_admits (hf : f ≠ .jobId) (hv : f.admits v = false) (s : String) :
    v ≠ .string s := by
  rintro rfl
  cases f with
  | jobId => exact hf rfl
  | directory | file | command | output | argument => cases hv

/-- **A value of another kind is refused in every part**, as one of that kind. -/
theorem bars_path (hv : f.admits v = false) : indexRecord.shape.Bars f.path v (f.misfit v) := by
  have hstring := fun hf => ne_string_of_admits hf hv
  cases f with
  | jobId =>
    refine Json.Record.bars_field rfl fun _ => (bars_natural ?_).map
    rintro x rfl
    cases hv
  | directory | file =>
    exact bars_command (Json.Record.bars_field rfl fun _ => (bars_text (hstring nofun)).map)
  | command | output =>
    refine bars_command (Json.Record.bars_field rfl fun _ => (bars_optional (hstring nofun) ?_).map)
    rintro rfl
    cases hv
  | argument i =>
    exact bars_command (Json.Record.bars_field rfl fun _ => ((bars_text (hstring nofun)).item i).map)

/-! ## Tasks -/

/-- Every path leads past the tag. -/
theorem Part.exists_path (f : Part) : ∃ key path, f.path = .key key :: path ∧ key ≠ Tagged.key := by
  cases f with
  | jobId | directory | file | command | output | argument => exact ⟨_, _, rfl, by decide⟩

theorem tag_of_ofTagged {t : Tagged} (h : ofTagged t = .ok (.index jobId c)) :
    t.tag = "index" ∧ indexRecord.accept t.body = .ok (.index jobId c) := by
  unfold ofTagged at h
  split at h
  · next htag => exact ⟨htag, h⟩
  · unfold acceptShutdown at h
    split at h <;> cases h

/-- A task with one part replaced is still a tagged value, and is refused for that part. -/
theorem refused_of_replaced (hj : accept j = .ok (.index jobId c)) (hv : f.admits v = false)
    (hr : Replaced v f.path j j') :
    ∃ t, Tagged.ofJson "internally tagged enum DriverToWorker" tags j' = .ok t ∧
      ofTagged t = .error (f.misfit v) := by
  obtain ⟨t, ht, hindex⟩ := bind_eq_ok_iff.1 hj
  obtain ⟨htag, hbody⟩ := tag_of_ofTagged hindex
  obtain ⟨key, path, hpath, hkey⟩ := f.exists_path
  rw [hpath] at hr
  obtain ⟨body, hreplaced, ht'⟩ := Tagged.ofJson_replaced ht hr hkey
  rw [← hpath] at hreplaced
  refine ⟨_, ht', ?_⟩
  rw [ofTagged, if_pos htag]
  exact bars_path hv hbody hreplaced

end Task

/-! ## Errors -/

namespace Store

variable {f : Task.Part} {v j j' : Json} {text message : Bytes} {jobId : UInt64} {c : CompileCommand}
  {s : Store} {h : Handle} {rest : List Bytes}

/-- No path to a part is the one to the message. -/
theorem messageRoot_ne_pathInMessage (f : Task.Part) : messageRoot ≠ pathInMessage f.path := by
  have hlength : 1 < (Json.pathText f.path).length := by
    cases f with
    | jobId | directory | file | command | output => decide
    | argument i =>
      have hcommand : "command".length = 7 := rfl
      simp only [Task.Part.path, Json.pathText, String.length_append, hcommand]
      omega
  have hpath : f.path.isEmpty = false := by cases f <;> rfl
  have hdot : Json.pathText f.path ≠ "." := by
    intro hdot
    rw [hdot] at hlength
    exact absurd hlength (by decide)
  intro hroot
  have hsame := congrArg String.length hroot
  simp only [pathInMessage, hpath, Bool.false_eq_true, if_false, if_neg hdot, String.length_append]
    at hsame
  omega

/-- **A task with one part of another kind is refused as a whole**: the error says what was found and
what was expected, and its path is the one to the message. -/
theorem receive_replaced (htext : Document Json.deepest j text)
    (hindex : decode Task.decoder text = .ok (.index jobId c)) (hv : f.admits v = false)
    (hr : Replaced v f.path j j') (hj : Document Json.deepest j' message)
    (hq : s.pending h.queue = message :: rest) (wait : Span) :
    (s.receive h Task.decoder wait).1 = .error (.misshapen messageRoot
        ("invalid type: " ++ (Found.of v).text ++ ", expected " ++ f.expected)) ∧
      messageRoot ≠ pathInMessage f.path := by
  refine ⟨?_, messageRoot_ne_pathInMessage f⟩
  have haccept := Task.accept_eq_ok_iff.2 (((decode_task_tells htext).value _).1 hindex)
  obtain ⟨t, ht, hunfit⟩ := Task.refused_of_replaced haccept hv hr
  have hparse := hj.parse_of_unfit (Tagged.makes_of_ofJson (Nat.le_refl _) ht) hunfit
  rw [receive_of_cons hq]
  show decode Task.decoder message = _
  rw [decode, Task.decoder, hparse]
  rfl

/-- A number among the words of a command. -/
theorem receive_replaced_argument :
    let command := fun j : Json => Json.object [("directory", .string "/a"), ("file", .string "x.c"),
      ("arguments", .array [.string "cc", j])]
    let task := fun j : Json =>
      Json.object [("type", .string "index"), ("job_id", .nat 7), ("command", command j)]
    let message := encode (task (.nat 5))
    let s : Store := ⟨[⟨1, 128, [message]⟩], [("/tasks", 0)]⟩
    let h : Handle := ⟨0, "/tasks", .openOnly, 128⟩
    Document Json.deepest (task (.string "x.c")) (encode (task (.string "x.c"))) ∧
      decode Task.decoder (encode (task (.string "x.c"))) =
        .ok (.index 7 ⟨"/a", "x.c", ["cc", "x.c"], none, none⟩) ∧
      (Task.Part.argument 1).admits (.nat 5) = false ∧
      Replaced (.nat 5) (Task.Part.argument 1).path (task (.string "x.c")) (task (.nat 5)) ∧
      Document Json.deepest (task (.nat 5)) message ∧ s.pending h.queue = [message] ∧
      (s.receive h Task.decoder .zero).1 =
        .error (.misshapen "ipc-message" "invalid type: integer `5`, expected a string") ∧
      "ipc-message" ≠ pathInMessage (Task.Part.argument 1).path := by
  intro command task message s h
  have htext : Document Json.deepest (task (.string "x.c")) (encode (task (.string "x.c"))) :=
    Json.parse_value_eq_ok_iff.1 (by decide +kernel)
  have hindex : decode Task.decoder (encode (task (.string "x.c"))) =
      .ok (.index 7 ⟨"/a", "x.c", ["cc", "x.c"], none, none⟩) := by decide +kernel
  have hr : Replaced (.nat 5) (Task.Part.argument 1).path (task (.string "x.c")) (task (.nat 5)) :=
    .member [("type", .string "index"), ("job_id", .nat 7)] [] <|
      .member [("directory", .string "/a"), ("file", .string "x.c")] [] <|
        .item [.string "cc"] [] rfl (.here _)
  have hj : Document Json.deepest (task (.nat 5)) message :=
    Json.parse_value_eq_ok_iff.1 (by decide +kernel)
  obtain ⟨hreceive, hpath⟩ := receive_replaced htext hindex rfl hr hj (s := s) (h := h) rfl .zero
  exact ⟨htext, hindex, rfl, hr, hj, rfl, hreceive.trans (by decide +kernel), hpath⟩

/-- The path does not lead to a job number that is a text. -/
theorem path_lost :
    ¬ ∀ (f : Task.Part) (v j j' : Json) (text message : Bytes) (jobId : UInt64) (c : CompileCommand),
      Document Json.deepest j text → decode Task.decoder text = .ok (.index jobId c) →
      f.admits v = false → Replaced v f.path j j' → Document Json.deepest j' message →
      ∃ reason, decode Task.decoder message = .error (.misshapen (pathInMessage f.path) reason) := by
  intro hpath
  let task := fun j : Json => Json.object [("type", .string "index"), ("job_id", j),
    ("command", .object [("directory", .string "/a"), ("file", .string "x.c"),
      ("arguments", .array [.string "cc"])])]
  have hdocument : ∀ j, (Json.Decoder.value Json.deepest).parse (encode (task j)) = .ok (task j) →
      Document Json.deepest (task j) (encode (task j)) := fun j => Json.parse_value_eq_ok_iff.1
  have hr : Replaced (.string "x") Task.Part.jobId.path (task (.nat 7)) (task (.string "x")) :=
    .member [("type", .string "index")] [("command", _)] (.here _)
  obtain ⟨reason, hreason⟩ := hpath .jobId (.string "x") (task (.nat 7)) (task (.string "x"))
    (encode (task (.nat 7))) (encode (task (.string "x"))) 7
    ⟨"/a", "x.c", ["cc"], none, none⟩ (hdocument _ (by decide +kernel)) (by decide +kernel) rfl hr
    (hdocument _ (by decide +kernel))
  have hroot : decode Task.decoder (encode (task (.string "x"))) =
      .error (.misshapen "ipc-message" "invalid type: string \"x\", expected u64") := by
    decide +kernel
  have hsame := (Error.misshapen.inj (Except.error.inj (hroot.symm.trans hreason))).1
  exact messageRoot_ne_pathInMessage .jobId hsame

end Store

end IndexFeed.Queue

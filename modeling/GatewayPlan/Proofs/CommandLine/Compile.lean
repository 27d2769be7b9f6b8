import GatewayPlan.CommandLine.Run
import GatewayPlan.Proofs.Codec.Api
import GatewayPlan.Proofs.Json.Document

/-!
# One configuration file from the command line

The command that plans an API finds a key, loads the configuration, plans it and hands the plan out,
and the first of these steps that fails is the one it reports. It asks nothing of the file system
but to read a file and to replace one, and it replaces a file only as its last step. So whatever
fails before leaves all files as they were.
-/

namespace GatewayPlan.CommandLine

/-- A file system in states `σ`. Reading leaves the state alone. Storing a text makes it the content
of one file, and if that works out all other files keep their bytes. What becomes of the state if it
does not is left open. -/
structure FileSystem (σ : Type) where
  content : σ → String → Except FileFault ByteArray
  store : σ → String → String → Except FileFault Unit × σ
  /-- Whether two paths lead to one file. -/
  Same : σ → String → String → Prop
  stored {s s' : σ} {path text : String} (h : store s path text = (.ok (), s')) :
    content s' path = .ok text.toUTF8
  kept {s s' : σ} {path text : String} (h : store s path text = (.ok (), s')) {other : String}
    (apart : ¬ Same s path other) (bytes : ByteArray) :
    content s' other = .ok bytes ↔ content s other = .ok bytes

namespace FileSystem

variable {σ : Type}

def files (fs : FileSystem σ) : Files (StateM σ) where
  read path := fun s => (fs.content s path, s)
  write path text := fun s => fs.store s path text

variable {α : Type} (fs : FileSystem σ) (s : σ) (path text : String)

theorem run_read_bind (f : Except FileFault ByteArray → StateM σ α) :
    (fs.files.read path >>= f).run s = (f (fs.content s path)).run s := rfl

theorem run_write_bind (f : Except FileFault Unit → StateM σ α) :
    (fs.files.write path text >>= f).run s =
      (f (fs.store s path text).1).run (fs.store s path text).2 := rfl

end FileSystem

namespace Directory

theorem read_write_self {d d' : Directory} {path text : String}
    (h : write d path text = .ok d') : read d' path = .ok text.toUTF8 := by
  unfold write at h
  cases place : place path <;> simp only [place, reduceCtorEq, Except.ok.injEq] at h
  case file name =>
    rw [← h, read, place]
    simp

theorem read_write_other {d d' : Directory} {path text other : String}
    (h : write d path text = .ok d') (apart : place path ≠ place other) (bytes : ByteArray) :
    read d' other = .ok bytes ↔ read d other = .ok bytes := by
  unfold write at h
  cases here : place path <;> simp only [here, reduceCtorEq, Except.ok.injEq] at h
  case file name =>
    rw [← h, read, read]
    cases there : place other with
    | file name' =>
      have ne : name' ≠ name := by
        rintro rfl
        exact apart (here.trans there.symm)
      simp [ne]
    | _ => simp

def store (d : Directory) (path text : String) : Except FileFault Unit × Directory :=
  match write d path text with
  | .ok d' => (.ok (), d')
  | .error fault => (.error fault, d)

theorem write_eq_ok_of_store {d d' : Directory} {path text : String}
    (h : store d path text = (.ok (), d')) : write d path text = .ok d' := by
  unfold store at h
  cases ends : write d path text with
  | error fault => simp [ends] at h
  | ok d'' => simpa [ends] using h

/-- A directory is a file system, in which two paths lead to one file if they lead to one place. -/
def fileSystem : FileSystem Directory where
  content := read
  store := store
  Same _ path other := place path = place other
  stored h := read_write_self (write_eq_ok_of_store h)
  kept h _ apart bytes := read_write_other (write_eq_ok_of_store h) apart bytes

theorem fileSystem_content : fileSystem.content = read := rfl

theorem fileSystem_files : fileSystem.files = files := by
  unfold FileSystem.files files
  congr 1
  funext path text d
  unfold fileSystem store
  simp only [bind, StateT.bind, get, getThe, MonadStateOf.get, StateT.get, pure]
  cases write d path text <;> rfl

end Directory

/-- What a run printed. Failures go elsewhere. -/
def Outcome.stdout (ends : Outcome) : String :=
  match ends.result with
  | .ok printed => printed
  | .error _ => ""

/-- A key is given by the option, or without the option by the environment. Any text will do. -/
def GivesKey (option environment : Option String) (key : String) : Prop :=
  option = some key ∨ option = none ∧ environment = some key

theorem GivesKey.unique {option environment : Option String} {key key' : String}
    (h : GivesKey option environment key) (h' : GivesKey option environment key') :
    key = key' := by
  rcases h with rfl | ⟨rfl, rfl⟩
  · rcases h' with same | ⟨absent, -⟩
    · exact Option.some.inj same
    · cases absent
  · rcases h' with given | ⟨-, same⟩
    · cases given
    · exact Option.some.inj same

/-- The text that a plan is handed out as. -/
def planText (plan : ApiPlan) : String :=
  Json.block (ApiPlan.codec.encode plan)

theorem decode_planText (plan : ApiPlan) :
    Json.decode ApiPlan.codec (planText plan) = .ok plan := by
  have faithful : ApiPlan.codec.Faithful Tree.Node.anyKey 7 plan := plan.codec_faithful
  exact Json.decode_block faithful (by decide)

section

variable (content : Except FileFault ByteArray) (environment : Option String) (o : CompileOptions)

/-- The steps before the plan is handed out, with the plan they end with. -/
inductive Plans : ApiPlan → Prop
  | intro {key : String} {config : Config} {plan : ApiPlan} :
      GivesKey o.apiKey environment key → Config.ofFile o.config content = .ok config →
      (config.plan key).result = .ok plan → Plans plan

/-- The first of these steps that fails, with the failure it is reported as. -/
inductive Refuses : Failure → Prop
  | keyless : o.apiKey = none → environment = none →
      Refuses ⟨"No --api-key given and $" ++ keyVariable ++ " is not set",
        ["environment variable not found"]⟩
  | unloaded {key : String} {e : Error} : GivesKey o.apiKey environment key →
      Config.ofFile o.config content = .error e →
      Refuses (.within ("Failed to load config " ++ o.config) e)
  | unplanned {key : String} {config : Config} {e : Error} :
      GivesKey o.apiKey environment key → Config.ofFile o.config content = .ok config →
      (config.plan key).result = .error e → Refuses (.within "Failed to plan API" e)

end

variable {content : Except FileFault ByteArray} {environment : Option String} {o : CompileOptions}

theorem Plans.unique {a b : ApiPlan} (ha : Plans content environment o a)
    (hb : Plans content environment o b) : a = b := by
  obtain ⟨given, loaded, planned⟩ := ha
  obtain ⟨given', loaded', planned'⟩ := hb
  cases given.unique given'
  cases loaded.symm.trans loaded'
  cases planned.symm.trans planned'
  rfl

theorem Refuses.not_plans {f : Failure} (h : Refuses content environment o f) (plan : ApiPlan) :
    ¬ Plans content environment o plan := by
  rintro ⟨given, loaded, planned⟩
  cases h with
  | keyless option absent =>
    rcases given with given | ⟨-, given⟩
    · cases option.symm.trans given
    · cases absent.symm.trans given
  | unloaded _ failed => cases failed.symm.trans loaded
  | unplanned given' loaded' failed =>
    cases given.unique given'
    cases loaded.symm.trans loaded'
    cases failed.symm.trans planned

variable (content environment o) in
theorem keyOf_cases :
    (∃ key, GivesKey o.apiKey environment key ∧ keyOf o.apiKey environment = .ok key) ∨
      ∃ f, Refuses content environment o f ∧ keyOf o.apiKey environment = .error f := by
  cases option : o.apiKey with
  | some key => exact .inl ⟨key, .inl rfl, rfl⟩
  | none =>
    cases environment with
    | some key => exact .inl ⟨key, .inr ⟨rfl, rfl⟩, rfl⟩
    | none => exact .inr ⟨_, .keyless option rfl, rfl⟩

variable {σ : Type}

section

variable (fs : FileSystem σ) (environment : Option String) (o : CompileOptions) (s : σ)

/-- How a run ends and the state it leaves. -/
inductive Ends : Except Failure String → σ → Prop
  | refused {f : Failure} : Refuses (fs.content s o.config) environment o f → Ends (.error f) s
  | printed {plan : ApiPlan} : Plans (fs.content s o.config) environment o plan →
      o.output = none → Ends (.ok (planText plan ++ "\n")) s
  | stored {plan : ApiPlan} {path : String} {s' : σ} :
      Plans (fs.content s o.config) environment o plan → o.output = some path →
      fs.store s path (planText plan) = (.ok (), s') → Ends (.ok "") s'
  | unstored {plan : ApiPlan} {path : String} {fault : FileFault} {s' : σ} :
      Plans (fs.content s o.config) environment o plan → o.output = some path →
      fs.store s path (planText plan) = (.error fault, s') →
      Ends (.error ⟨"Failed to write " ++ path, [fault.message]⟩) s'

/-- Every run ends in one of these ways. -/
theorem compile_ends : Ends fs environment o s ((compile fs.files environment o).run s).1.result
    ((compile fs.files environment o).run s).2 := by
  unfold compile
  rcases keyOf_cases (fs.content s o.config) environment o with
    ⟨key, given, keyed⟩ | ⟨f, keyless, keyed⟩
  · rw [keyed]
    simp only
    rw [fs.run_read_bind]
    cases loaded : Config.ofFile o.config (fs.content s o.config) with
    | error e => exact .refused (.unloaded given loaded)
    | ok config =>
      simp only
      cases planned : (config.plan key).result with
      | error e => exact .refused (.unplanned given loaded planned)
      | ok plan =>
        have plans : Plans (fs.content s o.config) environment o plan :=
          .intro given loaded planned
        simp only
        cases output : o.output with
        | none => exact .printed plans output
        | some path =>
          simp only
          rw [fs.run_write_bind, ← planText]
          rcases written : fs.store s path (planText plan) with ⟨fault | done, s'⟩
          · exact .unstored plans output written
          · exact .stored plans output written
  · rw [keyed]
    exact .refused keyless

end

variable {fs : FileSystem σ} {s s' : σ} {result : Except Failure String}

theorem Ends.succeeds_iff (h : Ends fs environment o s result s') :
    (∃ text, result = .ok text) ↔ ∃ plan, Plans (fs.content s o.config) environment o plan ∧
      ∀ path ∈ o.output, (fs.store s path (planText plan)).1 = .ok () := by
  constructor
  · rintro ⟨text, rfl⟩
    cases h with
    | printed plans output => exact ⟨_, plans, by simp [output]⟩
    | stored plans output written =>
      refine ⟨_, plans, ?_⟩
      rintro path mem
      cases output.symm.trans mem
      rw [written]
  · rintro ⟨plan, plans, writable⟩
    cases h with
    | refused refuses => exact absurd plans (refuses.not_plans plan)
    | printed => exact ⟨_, rfl⟩
    | stored => exact ⟨_, rfl⟩
    | unstored plans' output written =>
      cases plans.unique plans'
      cases (congrArg Prod.fst written).symm.trans (writable _ output)

end GatewayPlan.CommandLine

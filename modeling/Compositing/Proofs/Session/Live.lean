/-
Compositing.Proofs.Session.Live — the values that an engine holds.

The journal tells what value every parameter of every step has. A commit
gives the steps the parameters of its program, and each push that is taken
writes over them (`live?`); counting the pushes that are refused as well
gives the value that the engine was asked to hold (`asked?`). The two
differ only where the last push is `isOwed`. Much of what goes on is
`IsAside`: it tells the steps nothing but the extents of their textures.
-/
import Compositing.Proofs.Program.Arguments
import Compositing.Proofs.Session.Committed
import Compositing.Proofs.Session.Uploads

namespace Compositing

open Json (Value)

/-- The value of a parameter of a step. -/
def StepParams.value? (values : StepParams) (step : Nat) (key : String) :
    Option Value :=
  (Assoc.get? step values).bind (·.get? key)

/-- The value that a committed program gives to a parameter of a step. -/
def Commit.value? (made : Commit) (step : Nat) (key : String) :
    Option Value :=
  (made.graph?.bind (·.given? made.program step)).bind (·.get? key)

/-! ## Values in the journal -/

namespace Event

/-- What an event makes of the value of a parameter, if pushes count by
their success. What a text on trial gives is not known. -/
def write (counts : Bool → Bool) (step : Nat) (key : String)
    (value : Option Value) : Event → Option Value
  | .compile _ true => none
  | .commit made => made.value? step key
  | .push values accepted =>
    if counts accepted then (values.value? step key).or value else value
  | _ => value

/-- Whether the last push of a parameter since the commit was refused. -/
def owe (step : Nat) (key : String) (owed : Bool) : Event → Bool
  | .commit _ => false
  | .push values accepted =>
    if (values.value? step key).isSome then !accepted else owed
  | _ => owed

/-- The event tells a step the extent of its texture. -/
def TellsExtent (step : Nat) : Event → Prop
  | .push values _ => ∃ size, values = [(step, Session.sizeParams size)]
  | _ => False

/-- The event asks the engine for a value of a parameter. -/
def Sets (step : Nat) (key : String) : Event → Prop
  | .push values _ => values.value? step key ≠ none
  | _ => False

/-- The event leaves the running pipeline in place, and tells the steps at
most the extents of their textures. -/
def IsAside : Event → Prop
  | .compile _ accepted => accepted = false
  | .commit _ => False
  | .push values _ => ∃ step size, values = [(step, Session.sizeParams size)]
  | _ => True

theorem isAside_of_quiet {e : Event} (h : e.isQuiet = true) :
    e.IsAside := by
  cases e with
  | compile text accepted =>
    cases accepted with
    | false => rfl
    | true => cases h
  | push => cases h
  | commit => cases h
  | _ => trivial

theorem isIdle_of_aside {e : Event} (h : e.IsAside) :
    e.isQuiet = true ∨ e.isFeed = true := by
  cases e with
  | compile text accepted =>
    obtain rfl : accepted = false := h
    exact .inl rfl
  | commit => cases h
  | load | notify => exact .inl rfl
  | push | upload | rasterize => exact .inr rfl

theorem acceptedTexts_of_aside {events : List Event}
    (h : ∀ e ∈ events, e.IsAside) : acceptedTexts events = [] :=
  List.filterMap_eq_nil_iff.mpr fun e mem =>
    accepted?_of_idle (isIdle_of_aside (h e mem))

theorem commits_of_aside {events : List Event}
    (h : ∀ e ∈ events, e.IsAside) : commits events = [] :=
  List.filterMap_eq_nil_iff.mpr fun e mem =>
    committed?_of_idle (isIdle_of_aside (h e mem))

/-- What is pushed to one step. -/
theorem value?_singleton (step step' : Nat) (params : Params)
    (key : String) :
    StepParams.value? [(step', params)] step key =
      if step = step' then params.get? key else none := by
  unfold StepParams.value? Assoc.get?
  rw [apply_ite (Option.bind · _)]
  simp only [Assoc.compare_eq_iff, Assoc.get?_nil, Option.bind_some,
    Option.bind_none]

theorem get?_sizeParams (size : Extent) {key : String}
    (other : key ≠ "imageSize") :
    (Session.sizeParams size).get? key = none :=
  (Params.empty.get?_insert "imageSize" _ _ key).trans (if_neg other)

/-- What goes aside leaves all values but the extents that it tells. -/
theorem write_of_aside {e : Event} (aside : e.IsAside) {step : Nat}
    {key : String} (untold : key = "imageSize" → ¬ e.TellsExtent step)
    (counts : Bool → Bool) (value : Option Value) :
    write counts step key value e = value := by
  cases e with
  | compile text accepted =>
    obtain rfl : accepted = false := aside
    rfl
  | commit => cases aside
  | push values accepted =>
    obtain ⟨step', size, rfl⟩ := aside
    have silent : StepParams.value? [(step', Session.sizeParams size)] step
        key = none := by
      rw [value?_singleton]
      split
      · rename_i same
        subst same
        exact get?_sizeParams size fun isSize => untold isSize ⟨size, rfl⟩
      · rfl
    simp only [write, silent, Option.none_or, ite_self]
  | _ => rfl

theorem foldl_write_of_aside {step : Nat} {key : String}
    (counts : Bool → Bool) :
    ∀ {events : List Event}, (∀ e ∈ events, e.IsAside) →
      (key = "imageSize" → ∀ e ∈ events, ¬ e.TellsExtent step) →
      ∀ value, events.foldl (write counts step key) value = value
  | [], _, _, _ => rfl
  | e :: rest, aside, untold, value => by
    rw [List.forall_mem_cons] at aside
    have own : write counts step key value e = value :=
      write_of_aside aside.1
        (fun isSize => (List.forall_mem_cons.mp (untold isSize)).1) counts
        value
    rw [List.foldl_cons, own]
    exact foldl_write_of_aside counts aside.2
      (fun isSize => (List.forall_mem_cons.mp (untold isSize)).2) value

/-- Counting all pushes comes to the same as counting those that were
taken, as long as nothing is owed. -/
theorem write_eq_of_owe {step : Nat} {key : String} {owed : Bool}
    {live asked : Option Value} (same : owed = false → live = asked)
    {e : Event} (paid : owe step key owed e = false) :
    write (fun taken => taken) step key live e =
      write (fun _ => true) step key asked e := by
  cases e with
  | compile text accepted =>
    cases accepted with
    | true => rfl
    | false => exact same paid
  | commit made => rfl
  | push values accepted =>
    simp only [owe] at paid
    simp only [write]
    cases said : values.value? step key with
    | none =>
      rw [said] at paid
      rw [Option.none_or, Option.none_or, ite_self, ite_self]
      exact same paid
    | some value =>
      rw [said] at paid
      obtain rfl : accepted = true := by simpa using paid
      rfl
  | _ => exact same paid

theorem foldl_write_eq {step : Nat} {key : String} {events : List Event}
    {owed : Bool} {live asked : Option Value}
    (same : owed = false → live = asked)
    (paid : events.foldl (owe step key) owed = false) :
    events.foldl (write (fun taken => taken) step key) live =
      events.foldl (write (fun _ => true) step key) asked := by
  induction events generalizing owed live asked with
  | nil => exact same paid
  | cons e rest ih =>
    rw [List.foldl_cons] at paid ⊢
    exact ih (fun owes => write_eq_of_owe same owes) paid

end Event

namespace Session

variable {σ ρ : Type}

/-- The value that the engine holds for a parameter of a step: what the
committed program gave it, written over by every push that was taken. -/
def live? (s : Session σ ρ) (step : Nat) (key : String) : Option Value :=
  s.journal.foldl (Event.write (fun taken => taken) step key) none

/-- The value that the engine was last asked to hold. -/
def asked? (s : Session σ ρ) (step : Nat) (key : String) : Option Value :=
  s.journal.foldl (Event.write (fun _ => true) step key) none

/-- The engine has refused the last push of a parameter since the
commit. -/
def isOwed (s : Session σ ρ) (step : Nat) (key : String) : Bool :=
  s.journal.foldl (Event.owe step key) false

/-- Since the commit there was an event of some kind. -/
def SinceCommit (s : Session σ ρ) (Kind : Event → Prop) : Prop :=
  ∃ before after, s.journal = before ++ after ∧ Event.commits after = [] ∧
    ∃ e ∈ after, Kind e

theorem SinceCommit.append {s s' : Session σ ρ} {Kind : Event → Prop}
    (h : s.SinceCommit Kind) {events : List Event}
    (journal : s'.journal = s.journal ++ events)
    (commits : Event.commits events = []) : s'.SinceCommit Kind := by
  obtain ⟨before, after, eq, none, e, mem, kind⟩ := h
  refine ⟨before, after ++ events, ?_, ?_, e, List.mem_append_left _ mem,
    kind⟩
  · rw [journal, eq, List.append_assoc]
  · rw [Event.commits_append, none, commits]
    rfl

theorem SinceCommit.of_mem {s s' : Session σ ρ} {Kind : Event → Prop}
    {events : List Event} (journal : s'.journal = s.journal ++ events)
    (commits : Event.commits events = []) {e : Event} (mem : e ∈ events)
    (kind : Kind e) : s'.SinceCommit Kind :=
  ⟨s.journal, events, journal, commits, e, mem, kind⟩

/-- The engine holds what it was last asked to hold, unless it has refused
just that. -/
theorem live?_eq_asked? {s : Session σ ρ} {step : Nat} {key : String}
    (paid : s.isOwed step key = false) :
    s.live? step key = s.asked? step key :=
  Event.foldl_write_eq (fun _ => rfl) paid

/-! ## What the steps need not know of -/

variable [EffectEngine σ]

/-- The journal has grown by events of some kind. -/
def Wrote (s s' : Session σ ρ) (Kind : List Event → Prop) : Prop :=
  ∃ events, s'.journal = s.journal ++ events ∧ Kind events

/-- The session is the same for its steps but for the extents of their
textures. -/
structure Rests (s s' : Session σ ρ) : Prop where
  composition : s'.composition = s.composition
  config : s'.config = s.config
  compiled : s'.compiled = s.compiled
  stale : s'.stale = s.stale
  same : SameManifest s.engine s'.engine
  wrote : s.Wrote s' fun events => ∀ e ∈ events, e.IsAside

theorem Rests.of_fed {s s' : Session σ ρ} (fed : s.Fed s')
    (wrote : s.Wrote s' fun events => ∀ e ∈ events, e.IsAside) :
    s.Rests s' := by
  obtain ⟨events, engine, rasterizer, feed, same⟩ := fed
  exact ⟨rfl, rfl, rfl, rfl, same, wrote⟩

theorem Rests.refl (s : Session σ ρ) : s.Rests s :=
  .of_fed (.refl s) ⟨[], (List.append_nil _).symm, List.forall_mem_nil _⟩

theorem rests_asked {s : Session σ ρ} {events : List Event} {engine : σ}
    (quiet : ∀ e ∈ events, e.isQuiet = true)
    (same : SameManifest s.engine engine) :
    s.Rests (s.asked events engine) :=
  ⟨rfl, rfl, rfl, rfl, same, events, rfl,
    fun e mem => Event.isAside_of_quiet (quiet e mem)⟩

end Session

section Serving

variable {σ ρ : Type} [EffectEngine σ]

theorem Filled.isAside {step : Nat} {texture : String}
    {source : TextureSource} {flipY tell : Bool} {engine engine' : σ}
    {block : List Event}
    (h : Filled step texture source flipY tell engine block engine') :
    ∀ e ∈ block, e.IsAside := by
  cases h with
  | refused | silent => exact List.forall_mem_singleton.mpr trivial
  | told loud size =>
    exact List.forall_mem_cons.mpr
      ⟨trivial, List.forall_mem_singleton.mpr ⟨step, size, rfl⟩⟩

theorem MediaUpload.Served.isAside {u : MediaUpload} {flipY tell : Bool}
    {x y : σ × Option ρ} {block : List Event}
    (h : u.Served flipY tell x block y) : ∀ e ∈ block, e.IsAside := by
  obtain ⟨engine, engine', rasterizer, block, filled⟩ := h
  exact filled.isAside

theorem TextUpload.Served.isAside [TextRasterizer ρ] {u : TextUpload}
    {flipY : Bool} {x y : σ × Option ρ} {block : List Event}
    (h : u.Served flipY x block y) : ∀ e ∈ block, e.IsAside := by
  cases h with
  | undrawable => exact List.forall_mem_nil _
  | undrawn => exact List.forall_mem_singleton.mpr trivial
  | drawn engine engine' drawer drawer' picture answer events filled =>
    exact List.forall_mem_cons.mpr ⟨trivial, filled.isAside⟩

end Serving

namespace Session

variable {σ ρ : Type} [EffectEngine σ] [TextRasterizer ρ]

theorem rests_syncTextures (s : Session σ ρ) : s.Rests s.syncTextures := by
  obtain ⟨media, between, texts, after, served, served', eq⟩ :=
    exists_syncTextures s
  refine .of_fed (fed_syncTextures s)
    ⟨media ++ texts, by rw [eq]; rfl, fun e mem => ?_⟩
  rcases List.mem_append.mp mem with mem | mem
  · exact served.forall_mem (fun served => served.isAside) e mem
  · exact served'.forall_mem (fun served => served.isAside) e mem

theorem rests_refreshText (id : LayerId) (step : Nat) (s : Session σ ρ) :
    s.Rests (s.refreshText id step) := by
  unfold refreshText
  split
  · rename_i u _
    obtain ⟨events, after, served, eq⟩ := exists_uploadText u s
    exact .of_fed (fed_uploadText u s)
      ⟨events, by rw [eq]; rfl, served.isAside⟩
  · exact .refl s

omit [TextRasterizer ρ] in
theorem rests_refreshVideo (s : Session σ ρ) :
    s.Rests s.refreshVideo.2 := by
  refine .of_fed (fed_refreshVideo s) ?_
  unfold refreshVideo
  split
  · rename_i uploads _ _
    obtain ⟨events, after, served, eq⟩ := exists_uploadCounting
      (uploads.filter fun u => u.kind = .video) s
    exact ⟨events, by rw [eq]; rfl,
      served.forall_mem fun served => served.isAside⟩
  · exact (Rests.refl s).wrote

end Session

end Compositing

import RelationalStore.Theory.Run
import RelationalStore.Rdb.Errno

/-! # Versions and open callbacks

The first `Init` of a store object has the caller create, upgrade or downgrade the database to the
version that is asked for, stores the version in the file and then tells the caller that the store
is open. The callbacks are given the store, so that each of them may set the version as well. -/

namespace RelationalStore

inductive OpenCallback where
  | onCreate
  | onUpgrade (currentVersion targetVersion : Int)
  | onDowngrade (currentVersion targetVersion : Int)
  | onOpen
  deriving DecidableEq

/-- What a callback returns, and the version that it has set on the way, if it has set one. -/
structure CallbackOutcome where
  result : Except RdbError Unit
  version : Option Int := none

/-- A call of `Init` and what its steps come to. A `SetVersion` that fails leaves the version. -/
structure OpenRequest where
  version : Int
  /-- The role is `OWNER` and the store is not read-only. -/
  owner : Bool
  createPool : Except RdbError Unit
  setSecurityLabel : Except RdbError Unit
  getVersion : Except RdbError Unit
  callback : OpenCallback → CallbackOutcome
  setVersion : Except RdbError Unit

/-- The version in the file, and whether `initStatus_` of the store object is `E_OK`. -/
structure OpenState where
  version : Int
  initialized : Bool

inductive OpenCall where
  | init (request : OpenRequest)
  /-- Another store object is made for the path. -/
  | newObject
  /-- A caller sets the version, or another file takes the place of the database: an empty one
  after a corruption, the slave or a backup. An `Init` does this before it reads the version. -/
  | replaced (version : Int)

/-- What a call returns, and the callbacks that have been called, in their order. -/
structure OpenAnswer where
  result : Except RdbError Unit
  called : List OpenCallback

namespace OpenState

def initial (version : Int) : OpenState := ⟨version, false⟩

def migration (currentVersion version : Int) : OpenCallback :=
  if currentVersion = 0 then .onCreate
  else if version > currentVersion then .onUpgrade currentVersion version
  else .onDowngrade currentVersion version

/-- The version after a callback. -/
def after (s : OpenState) (o : CallbackOutcome) : OpenState :=
  { s with version := o.version.getD s.version }

def processOpenCallback (s : OpenState) (r : OpenRequest) : OpenAnswer × OpenState :=
  if r.version = -1 then (⟨.ok (), []⟩, s)
  else
    match r.getVersion with
    | .error e => (⟨.error e, []⟩, s)
    | .ok _ =>
      let opened := r.callback .onOpen
      if r.version = s.version then (⟨opened.result, [.onOpen]⟩, s.after opened)
      else
        let callback := migration s.version r.version
        match (r.callback callback).result, r.setVersion with
        | .error e, _ | .ok _, .error e => (⟨.error e, [callback]⟩, s.after (r.callback callback))
        | .ok _, .ok _ =>
          (⟨opened.result, [callback, .onOpen]⟩, { s with version := r.version }.after opened)

def init (s : OpenState) (r : OpenRequest) : OpenAnswer × OpenState :=
  if s.initialized then (⟨.ok (), []⟩, s)
  else
    match r.createPool with
    | .error e => (⟨.error e, []⟩, s)
    | .ok _ =>
      if r.owner then
        match r.setSecurityLabel with
        | .error e => (⟨.error e, []⟩, s)
        | .ok _ =>
          let (answer, s) := s.processOpenCallback r
          match answer.result with
          | .error _ => (answer, s)
          | .ok _ => (answer, { s with initialized := true })
      else (⟨.ok (), []⟩, { s with initialized := true })

def step (s : OpenState) : OpenCall → OpenAnswer × OpenState
  | .init r => s.init r
  | .newObject => (⟨.ok (), []⟩, { s with initialized := false })
  | .replaced version => (⟨.ok (), []⟩, { s with version })

/-- An owner whose call succeeds has the version that it asks for. -/
def Current (t : Transition OpenState OpenCall OpenAnswer) : Prop :=
  ∀ r, t.call = .init r → r.owner → r.version ≠ -1 → t.ret.result = .ok () →
    t.post.version = r.version

/-- A store object that is open is not asked for another version, and the `OnOpen` of a call that
opens one does not set another version. -/
def SameVersion (s : OpenState) (c : OpenCall) : Prop :=
  ∀ r, c = .init r → r.owner → r.version ≠ -1 →
    if s.initialized then s.version = r.version
    else (s.init r).1.result = .ok () → (r.callback .onOpen).version.getD r.version = r.version

variable {s : OpenState} {r : OpenRequest}

/-- Up to `OnOpen` a successful call has brought the file to the version that it asks for. -/
theorem version_processOpenCallback (hversion : r.version ≠ -1)
    (hok : (s.processOpenCallback r).1.result = .ok ()) :
    (s.processOpenCallback r).2.version = (r.callback .onOpen).version.getD r.version := by
  unfold processOpenCallback at hok ⊢
  grind [after]

theorem version_init (howner : r.owner) (hversion : r.version ≠ -1)
    (hfirst : s.initialized = false) (hok : (s.init r).1.result = .ok ()) :
    (s.init r).2.version = (r.callback .onOpen).version.getD r.version := by
  have hprocess := version_processOpenCallback (s := s) hversion
  unfold init at hok ⊢
  grind

/-- Every successful call of an owner leaves the version that it asks for just when no open store
object is asked for another one and no `OnOpen` sets another one. -/
theorem current_iff_sameVersion (version : Int) (calls : List OpenCall) :
    (∀ t ∈ trace step (initial version) calls, Current t) ↔
      ∀ t ∈ trace step (initial version) calls, t.pre.SameVersion t.call := by
  refine trace_forall_iff (I := fun _ => True) (fun _ _ _ _ => trivial) (fun s c _ => ?_) trivial
  refine forall_congr' fun r => ?_
  refine forall_congr' fun hcall => forall_congr' fun howner => forall_congr' fun hversion => ?_
  obtain rfl : c = .init r := hcall
  cases hinit : s.initialized with
  | true =>
    have hsame : s.init r = (⟨.ok (), []⟩, s) := if_pos hinit
    simp [transition, step, hsame]
  | false =>
    simp only [transition, step, Bool.false_eq_true, if_false]
    exact forall_congr' fun hok => by rw [version_init howner hversion hinit hok]

/-! ## Creating once -/

/-- The call does not bring the file to version 0. -/
def ZeroFree : OpenCall → Prop
  | .init r => r.version ≠ 0 ∧ ∀ callback, (r.callback callback).version ≠ some 0
  | .newObject => True
  | .replaced version => version ≠ 0

theorem after_ne_zero (h : s.version ≠ 0) (ho : o.version ≠ some 0) : (s.after o).version ≠ 0 := by
  unfold after
  cases hset : o.version <;> grind

theorem migration_ne_onCreate (h : currentVersion ≠ 0) (version : Int) :
    migration currentVersion version ≠ .onCreate := by
  grind [migration]

theorem processOpenCallback_of_ne_zero (hfree : ZeroFree (.init r)) (h : s.version ≠ 0) :
    .onCreate ∉ (s.processOpenCallback r).1.called ∧ (s.processOpenCallback r).2.version ≠ 0 := by
  obtain ⟨hversion, hcallback⟩ := hfree
  have hafter (callback : OpenCallback) : (s.after (r.callback callback)).version ≠ 0 :=
    after_ne_zero h (hcallback callback)
  have hmigration := (migration_ne_onCreate h r.version).symm
  unfold processOpenCallback
  split
  · exact ⟨nofun, h⟩
  split
  · exact ⟨nofun, h⟩
  dsimp only
  split
  · exact ⟨by simp, hafter _⟩
  split
  · exact ⟨by simpa using hmigration, hafter _⟩
  · exact ⟨by simpa using hmigration, hafter _⟩
  · exact ⟨by simpa using hmigration, after_ne_zero hversion (hcallback _)⟩

theorem step_of_ne_zero (hfree : ZeroFree c) (h : s.version ≠ 0) :
    .onCreate ∉ (step s c).1.called ∧ (step s c).2.version ≠ 0 := by
  cases c with
  | init r =>
    have hprocess := processOpenCallback_of_ne_zero hfree h
    unfold step init
    grind
  | newObject => exact ⟨nofun, h⟩
  | replaced version => exact ⟨nofun, hfree⟩

/-- `OnOpen` comes after `OnCreate` only when the version has been stored. -/
theorem version_of_created (h : (s.init r).1.called = [.onCreate, .onOpen]) :
    (s.init r).2.version = (r.callback .onOpen).version.getD r.version := by
  unfold init processOpenCallback at *
  grind [after]

theorem version_ne_zero_of_created (hfree : ZeroFree c)
    (h : (step s c).1.called = [.onCreate, .onOpen]) : (step s c).2.version ≠ 0 := by
  cases c with
  | init r =>
    rw [step, version_of_created h]
    have hopen := hfree.2 .onOpen
    cases hset : (r.callback .onOpen).version with
    | none => exact hfree.1
    | some version => exact fun hzero => hopen (hset.trans (congrArg some hzero))
  | newObject | replaced => exact nomatch h

/-- Once `OnCreate` has been followed by `OnOpen`, it is not called again, by whatever store object,
until something brings the file back to version 0. -/
theorem created_once (version : Int) (earlier later : List OpenCall) (c : OpenCall)
    (hcreated : (step (final step (initial version) earlier) c).1.called = [.onCreate, .onOpen])
    (hfree : ∀ c' ∈ c :: later, ZeroFree c') :
    ∀ t ∈ trace step (step (final step (initial version) earlier) c).2 later,
      .onCreate ∉ t.ret.called := by
  obtain ⟨hc, hlater⟩ := List.forall_mem_cons.mp hfree
  refine trace_forall (I := fun s => s.version ≠ 0) (G := fun _ c => ZeroFree c)
    (fun s c h hfree => (step_of_ne_zero hfree h).symm) (version_ne_zero_of_created hc hcreated)
    fun t ht => hlater _ (call_mem_of_mem_trace ht)

/-- An owner asks for the version, and nothing fails. -/
def plainRequest (version : Int) : OpenRequest :=
  ⟨version, true, .ok (), .ok (), .ok (), fun _ => ⟨.ok (), none⟩, .ok ()⟩

theorem created_once_upgraded :
    (step (initial 0) (.init (plainRequest 1))).1.called = [.onCreate, .onOpen] ∧
      ∀ t ∈ trace step (step (initial 0) (.init (plainRequest 1))).2
        [.newObject, .init (plainRequest 2)], .onCreate ∉ t.ret.called := by
  refine ⟨rfl, created_once 0 [] _ _ rfl ?_⟩
  simp [ZeroFree, plainRequest]

end OpenState

end RelationalStore

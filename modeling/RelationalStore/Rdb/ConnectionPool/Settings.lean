import RelationalStore.Rdb.ConnectionPool.Init

/-! # Settings of the open connections

A setting is stored in the configuration and then given to the connections, up to a refusal. -/

namespace RelationalStore.ConnPool

open List

inductive Tokenizer where
  | none
  | icu
  | custom
  deriving DecidableEq

inductive ContainerKind where
  | readers
  | writers
  | trans
  deriving DecidableEq

structure ConnSettings where
  tokenizer : Tokenizer
  locale : String
  role : RoleType

structure OpenConn where
  kind : ContainerKind
  tokenizer : Tokenizer
  locale : String
  lent : Bool := false
  listed : Bool := true

inductive Setting where
  | tokenizer (t : Tokenizer)
  | locale (l : String)

structure RunningCall where
  setting : Setting
  todo : List ContainerKind

structure ConfiguredPool where
  config : ConnSettings
  attachConfig : ConnSettings
  isAttach : Bool := false
  conns : List OpenConn := []
  running : Option RunningCall := .none

inductive SettingAnswer where
  | proceeds
  | ok
  | error
  deriving DecidableEq

inductive SettingStep where
  | setTokenizer (t : Tokenizer)
  | configLocale (l : String)
  | proceed (outcomes : List Bool)
  | create (kind : ContainerKind) (localeSet : Bool)
  | lend (i : Nat)
  | release (i : Nat) (closes : Bool)
  | clear (kind : ContainerKind)
  | init (isAttach : Bool)

def OpenConn.apply (c : OpenConn) (setting : Setting) (outcome : Bool) : Option OpenConn :=
  match setting with
  | .tokenizer t =>
    if t ≠ .custom then some c
    else if outcome then some { c with tokenizer := .custom }
    else .none
  | .locale l => if outcome then some { c with locale := l } else .none

def applySetting (kind : ContainerKind) (setting : Setting) :
    List OpenConn → List Bool → Bool × List OpenConn
  | [], _ => (true, [])
  | c :: conns, outcomes =>
    if c.kind = kind ∧ c.listed then
      match c.apply setting (outcomes.headD true) with
      | .none => (false, c :: conns)
      | some c' =>
        let (done, conns) := applySetting kind setting conns outcomes.tail
        (done, c' :: conns)
    else
      let (done, conns) := applySetting kind setting conns outcomes
      (done, c :: conns)

variable (config : ConnSettings)

def ConnSettings.LoadsTokenizer : Prop :=
  config.role = .visitor → config.tokenizer ≠ .custom
  deriving Decidable

namespace ConfiguredPool

variable (s : ConfiguredPool)

def setTokenizer (t : Tokenizer) : SettingAnswer × ConfiguredPool :=
  if t = .icu then (.error, s)
  else if s.config.tokenizer = t then (.ok, s)
  else
    (.proceeds,
      { s with
        config := { s.config with tokenizer := t }
        running := some ⟨.tokenizer t, [.readers, .writers, .trans]⟩ })

def configLocale (l : String) : SettingAnswer × ConfiguredPool :=
  (.proceeds,
    { s with
      config := { s.config with locale := l }
      running := some ⟨.locale l, [.readers, .writers, .trans]⟩ })

def proceed (outcomes : List Bool) : SettingAnswer × ConfiguredPool :=
  match s.running with
  | some ⟨setting, kind :: todo⟩ =>
    match applySetting kind setting s.conns outcomes with
    | (false, conns) => (.error, { s with conns, running := .none })
    | (true, conns) =>
      if todo = [] then (.ok, { s with conns, running := .none })
      else (.proceeds, { s with conns, running := some ⟨setting, todo⟩ })
  | _ => (.proceeds, s)

def open_ (kind : ContainerKind) (localeSet : Bool) : OpenConn :=
  let config := if s.isAttach then s.attachConfig else s.config
  { kind
    tokenizer := if config.LoadsTokenizer then config.tokenizer else .none
    locale := if config.locale ≠ "" ∧ localeSet then config.locale else "" }

def clear (kind : ContainerKind) : ConfiguredPool :=
  { s with
    conns := (s.conns.filter fun c => c.kind ≠ kind ∨ c.lent).map fun c =>
      if c.kind = kind then { c with listed := false } else c }

def step : SettingStep → SettingAnswer × ConfiguredPool
  | .setTokenizer t => if s.running.isSome then (.proceeds, s) else s.setTokenizer t
  | .configLocale l => if s.running.isSome then (.proceeds, s) else s.configLocale l
  | .proceed outcomes => s.proceed outcomes
  | .create kind localeSet => (.proceeds, { s with conns := s.conns ++ [s.open_ kind localeSet] })
  | .lend i => (.proceeds, { s with conns := s.conns.modify i ({ · with lent := true }) })
  | .release i closes =>
    if closes then (.proceeds, { s with conns := s.conns.eraseIdx i })
    else (.proceeds, { s with conns := s.conns.modify i ({ · with lent := false }) })
  | .clear kind => (.proceeds, s.clear kind)
  | .init isAttach => (.proceeds, { s with isAttach })

end ConfiguredPool

/-! ## What the callers may rely on -/

structure InForce where
  tokenizer : Option Tokenizer
  locale : Option String

variable (f : InForce)

def InForce.set : Setting → Bool → InForce
  | .tokenizer t, holds => { f with tokenizer := if holds then some t else .none }
  | .locale l, holds => { f with locale := if holds then some l else .none }

def InForce.next (running : Option RunningCall) (c : SettingStep)
    (answer : SettingAnswer) : InForce :=
  match c, running with
  | .setTokenizer t, .none => if answer = .error then f else f.set (.tokenizer t) (answer = .ok)
  | .configLocale l, .none => f.set (.locale l) (answer = .ok)
  | .proceed _, some call =>
    if answer = .proceeds then f else f.set call.setting (answer = .ok)
  | _, _ => f

variable (s : ConfiguredPool × InForce)

def accountedStep (c : SettingStep) :
    SettingAnswer × (ConfiguredPool × InForce) :=
  ((s.1.step c).1, ((s.1.step c).2, s.2.next s.1.running c (s.1.step c).1))

def openedPool (attachConfig : ConnSettings) : ConfiguredPool × InForce :=
  ({ config, attachConfig }, ⟨some config.tokenizer, some config.locale⟩)

/-- All open connections use the settings in force. -/
structure SettingsUsed (s : ConfiguredPool × InForce) : Prop where
  tokenizer : ∀ t, s.2.tokenizer = some t → ∀ c ∈ s.1.conns, c.tokenizer = t
  locale : ∀ l, s.2.locale = some l → ∀ c ∈ s.1.conns, c.locale = l

/-- Connections are opened in the normal mode, take the locale and load the tokenizer; none is lent
while its container is cleared; a tokenizer that is configured is asked for again only while it is
in force, and the custom tokenizer is not taken back. -/
def Orderly : SettingStep → Prop
  | .setTokenizer t => if s.1.config.tokenizer = t then s.2.tokenizer = some t else t ≠ .none
  | .create _ localeSet => s.1.isAttach = false ∧ localeSet ∧ s.1.config.LoadsTokenizer
  | .clear kind => ∀ c ∈ s.1.conns, c.kind = kind → c.lent = false
  | _ => True

instance : (c : SettingStep) → Decidable (Orderly s c)
  | .setTokenizer t => inferInstanceAs (Decidable
      (if s.1.config.tokenizer = t then s.2.tokenizer = some t else t ≠ .none))
  | .create _ localeSet => inferInstanceAs (Decidable
      (s.1.isAttach = false ∧ localeSet ∧ s.1.config.LoadsTokenizer))
  | .clear kind => inferInstanceAs (Decidable (∀ c ∈ s.1.conns, c.kind = kind → c.lent = false))
  | .configLocale _ | .proceed _ | .lend _ | .release _ _ | .init _ => isTrue trivial

/-! ## One step -/

namespace Setting

def UsedBy : Setting → OpenConn → Prop
  | .tokenizer t, c => c.tokenizer = t
  | .locale l, c => c.locale = l

def ConfiguredIn : Setting → ConnSettings → Prop
  | .tokenizer t, config => config.tokenizer = t
  | .locale l, config => config.locale = l

def store : Setting → ConnSettings → ConnSettings
  | .tokenizer t, config => { config with tokenizer := t }
  | .locale l, config => { config with locale := l }

def Effective : Setting → Prop
  | .tokenizer t => t = .custom
  | .locale _ => True

end Setting

def InForce.Has : Setting → Prop
  | .tokenizer t => f.tokenizer = some t
  | .locale l => f.locale = some l

structure Settled (s : ConfiguredPool × InForce) : Prop where
  listed : ∀ c ∈ s.1.conns, c.listed
  inForce : ∀ x, s.2.Has x → x.ConfiguredIn s.1.config ∧ ∀ c ∈ s.1.conns, x.UsedBy c
  running : ∀ call, s.1.running = some call → call.setting.Effective ∧
    call.setting.ConfiguredIn s.1.config ∧
    ∀ c ∈ s.1.conns, c.kind ∉ call.todo → call.setting.UsedBy c

section
variable {s : ConfiguredPool × InForce} {x y : Setting} {c c' : OpenConn} {outcome : Bool}
  {config : ConnSettings} {kind : ContainerKind} {conns : List OpenConn} {outcomes : List Bool}

theorem OpenConn.frame_apply (h : c.apply x outcome = some c') :
    c'.kind = c.kind ∧ c'.listed = c.listed := by
  cases x with
  | tokenizer t =>
    simp only [OpenConn.apply] at h
    split_ifs at h <;> cases h <;> exact ⟨rfl, rfl⟩
  | locale l =>
    simp only [OpenConn.apply] at h
    split_ifs at h
    cases h
    exact ⟨rfl, rfl⟩

theorem OpenConn.uses_apply (hx : x.Effective) (h : c.apply x outcome = some c') :
    x.UsedBy c' := by
  cases x with
  | tokenizer t =>
    cases (show t = .custom from hx)
    simp only [OpenConn.apply, ne_eq, not_true, if_false] at h
    split_ifs at h
    cases h
    rfl
  | locale l =>
    simp only [OpenConn.apply] at h
    split_ifs at h
    cases h
    rfl

theorem OpenConn.keeps_apply (h : c.apply x outcome = some c') (hx : x.Effective)
    (hconfig : x.ConfiguredIn config) (hconfig' : y.ConfiguredIn config) (hy : y.UsedBy c) :
    y.UsedBy c' := by
  have hused := OpenConn.uses_apply hx h
  cases x with
  | tokenizer t =>
    cases y with
    | tokenizer t' => exact hused.trans (hconfig.symm.trans hconfig')
    | locale l =>
      simp only [OpenConn.apply] at h
      split_ifs at h <;> cases h <;> exact hy
  | locale l =>
    cases y with
    | locale l' => exact hused.trans (hconfig.symm.trans hconfig')
    | tokenizer t =>
      simp only [OpenConn.apply] at h
      split_ifs at h
      cases h
      exact hy

theorem mem_applySetting (h : c' ∈ (applySetting kind x conns outcomes).2) :
    (∃ c ∈ conns, ∃ outcome, c.apply x outcome = some c') ∨
      (c' ∈ conns ∧ ((applySetting kind x conns outcomes).1 →
        ¬ (c'.kind = kind ∧ c'.listed))) := by
  induction conns generalizing outcomes with
  | nil => exact nomatch h
  | cons c conns ih =>
    have hrest {outcomes : List Bool} (h : c' ∈ (applySetting kind x conns outcomes).2) :
        (∃ c₁ ∈ c :: conns, ∃ outcome, c₁.apply x outcome = some c') ∨
          (c' ∈ c :: conns ∧ ((applySetting kind x conns outcomes).1 →
            ¬ (c'.kind = kind ∧ c'.listed))) := by
      rcases ih h with ⟨c₁, hc₁, hset⟩ | ⟨hmem, hother⟩
      · exact .inl ⟨c₁, mem_cons_of_mem _ hc₁, hset⟩
      · exact .inr ⟨mem_cons_of_mem _ hmem, hother⟩
    rw [applySetting] at h ⊢
    by_cases hkind : c.kind = kind ∧ c.listed
    · rw [if_pos hkind] at h ⊢
      cases hset : c.apply x (outcomes.headD true) with
      | none =>
        rw [hset] at h
        exact .inr ⟨h, nofun⟩
      | some c₁ =>
        rw [hset] at h
        rcases mem_cons.mp h with rfl | h
        · exact .inl ⟨c, mem_cons_self, _, hset⟩
        · exact hrest h
    · rw [if_neg hkind] at h ⊢
      rcases mem_cons.mp h with rfl | h
      · exact .inr ⟨mem_cons_self, fun _ => hkind⟩
      · exact hrest h

theorem InForce.has_of_set {f : InForce} (h : (f.set x false).Has y) (config : ConnSettings) :
    f.Has y ∧ (y.ConfiguredIn config → y.ConfiguredIn (x.store config)) := by
  cases x <;> cases y
  · exact nomatch (show none = some _ from h)
  · exact ⟨h, id⟩
  · exact ⟨h, id⟩
  · exact nomatch (show none = some _ from h)

theorem InForce.eq_or_has_of_set {f : InForce} (h : (f.set x true).Has y) : y = x ∨ f.Has y := by
  cases x <;> cases y
  · exact .inl (congrArg _ (Option.some.inj h).symm)
  · exact .inr h
  · exact .inr h
  · exact .inl (congrArg _ (Option.some.inj h).symm)

theorem Settled.begin_ (h : Settled s) (hx : x.Effective) : Settled
    ({ s.1 with
        config := x.store s.1.config
        running := some ⟨x, [.readers, .writers, .trans]⟩ }, s.2.set x false) := by
  refine ⟨h.listed, fun y hy => ?_, ?_⟩
  · obtain ⟨hhas, hstore⟩ := InForce.has_of_set hy s.1.config
    exact ⟨hstore (h.inForce y hhas).1, (h.inForce y hhas).2⟩
  · rintro _ ⟨⟩
    refine ⟨hx, by cases x <;> rfl, fun c _ hkind => absurd ?_ hkind⟩
    cases c.kind <;> simp

theorem Settled.proceed (h : Settled s) (outcomes : List Bool) :
    Settled (accountedStep s (.proceed outcomes)).2 := by
  cases hrun : s.1.running with
  | none => simpa only [accountedStep, ConfiguredPool.step, ConfiguredPool.proceed, hrun,
      InForce.next] using h
  | some call =>
    obtain ⟨x, todo⟩ := call
    obtain ⟨hx, hconfig, hused⟩ := h.running _ hrun
    cases todo with
    | nil => simpa only [accountedStep, ConfiguredPool.step, ConfiguredPool.proceed, hrun,
        InForce.next, if_true] using h
    | cons kind todo =>
      have hlisted : ∀ c ∈ (applySetting kind x s.1.conns outcomes).2, c.listed := by
        intro c hc
        rcases mem_applySetting hc with ⟨c₁, hc₁, _, hset⟩ | ⟨hmem, -⟩
        · exact (OpenConn.frame_apply hset).2.trans (h.listed c₁ hc₁)
        · exact h.listed c hmem
      have hkept : ∀ y, s.2.Has y → y.ConfiguredIn s.1.config ∧
          ∀ c ∈ (applySetting kind x s.1.conns outcomes).2, y.UsedBy c := by
        intro y hy
        obtain ⟨hyconfig, hyused⟩ := h.inForce y hy
        refine ⟨hyconfig, fun c hc => ?_⟩
        rcases mem_applySetting hc with ⟨c₁, hc₁, _, hset⟩ | ⟨hmem, -⟩
        · exact OpenConn.keeps_apply hset hx hconfig hyconfig (hyused c₁ hc₁)
        · exact hyused c hmem
      have hset : (applySetting kind x s.1.conns outcomes).1 →
          ∀ c ∈ (applySetting kind x s.1.conns outcomes).2, c.kind ∉ todo → x.UsedBy c := by
        intro hdone c hc htodo
        rcases mem_applySetting hc with ⟨c₁, hc₁, _, hset⟩ | ⟨hmem, hother⟩
        · exact OpenConn.uses_apply hx hset
        · refine hused c hmem fun hin => ?_
          rcases mem_cons.mp hin with heq | hin
          · exact hother hdone ⟨heq, h.listed c hmem⟩
          · exact htodo hin
      simp only [accountedStep, ConfiguredPool.step, ConfiguredPool.proceed, hrun]
      generalize applySetting kind x s.1.conns outcomes = r at hlisted hkept hset ⊢
      obtain ⟨done, conns⟩ := r
      cases done with
      | false =>
        refine ⟨hlisted, fun y hy => ?_, nofun⟩
        exact hkept y (InForce.has_of_set hy s.1.config).1
      | true =>
        by_cases hlast : todo = []
        · subst hlast
          refine ⟨hlisted, fun y hy => ?_, nofun⟩
          rcases InForce.eq_or_has_of_set hy with rfl | hy
          · exact ⟨hconfig, fun c hc => hset rfl c hc not_mem_nil⟩
          · exact hkept y hy
        · simp only [if_neg hlast]
          refine ⟨hlisted, hkept, ?_⟩
          rintro _ ⟨⟩
          exact ⟨hx, hconfig, hset rfl⟩

theorem Settled.of_same (h : Settled s) (hconfig : s'.config = s.1.config)
    (hrunning : s'.running = s.1.running)
    (hconns : ∀ c' ∈ s'.conns, ∃ c ∈ s.1.conns, c' = { c with lent := c'.lent }) :
    Settled (s', s.2) := by
  refine ⟨fun c' hc' => ?_, fun y hy => ⟨hconfig ▸ (h.inForce y hy).1, fun c' hc' => ?_⟩,
    fun call hcall => ?_⟩
  · obtain ⟨c, hc, heq⟩ := hconns c' hc'
    rw [heq]
    exact h.listed c hc
  · obtain ⟨c, hc, heq⟩ := hconns c' hc'
    have hy := (h.inForce y hy).2 c hc
    rw [heq]
    cases y <;> exact hy
  · obtain ⟨heffective, hconfigured, hused⟩ := h.running call (hrunning ▸ hcall)
    refine ⟨heffective, hconfig ▸ hconfigured, fun c' hc' hkind => ?_⟩
    obtain ⟨c, hc, heq⟩ := hconns c' hc'
    rw [heq] at hkind ⊢
    have hused := hused c hc hkind
    revert hused
    cases call.setting <;> exact id

theorem Settled.create (h : Settled s) (hnormal : s.1.isAttach = false)
    (hloads : s.1.config.LoadsTokenizer) (kind : ContainerKind) :
    Settled ({ s.1 with conns := s.1.conns ++ [s.1.open_ kind true] }, s.2) := by
  have hopen : ∀ x : Setting, x.ConfiguredIn s.1.config → x.UsedBy (s.1.open_ kind true) := by
    intro x hx
    have hlocale : (s.1.open_ kind true).locale = s.1.config.locale := by
      by_cases hempty : s.1.config.locale = "" <;> simp [ConfiguredPool.open_, hnormal, hempty]
    cases x with
    | tokenizer t => exact (by simp [ConfiguredPool.open_, hnormal, hloads] :
        (s.1.open_ kind true).tokenizer = s.1.config.tokenizer).trans hx
    | locale l => exact hlocale.trans hx
  refine ⟨?_, fun y hy => ⟨(h.inForce y hy).1, ?_⟩, fun call hcall => ?_⟩
  · exact forall_mem_append.mpr ⟨h.listed, by simp [ConfiguredPool.open_]⟩
  · refine forall_mem_append.mpr ⟨(h.inForce y hy).2, ?_⟩
    exact forall_mem_singleton.mpr (hopen y (h.inForce y hy).1)
  · obtain ⟨heffective, hconfigured, hused⟩ := h.running call hcall
    refine ⟨heffective, hconfigured, forall_mem_append.mpr ⟨hused, ?_⟩⟩
    exact forall_mem_singleton.mpr fun _ => hopen _ hconfigured

theorem exists_of_mem_modify (h : c' ∈ conns.modify i ({ · with lent := lent })) :
    ∃ c ∈ conns, c' = { c with lent := c'.lent } := by
  obtain ⟨j, hj, rfl⟩ := mem_iff_getElem.mp h
  rw [getElem_modify]
  split <;> exact ⟨_, getElem_mem _, rfl⟩

theorem Settled.step (h : Settled s) (c : SettingStep) (horderly : Orderly s c) :
    Settled (accountedStep s c).2 := by
  cases c with
  | setTokenizer t =>
    cases hrun : s.1.running with
    | some call => simpa [accountedStep, ConfiguredPool.step, hrun, InForce.next] using h
    | none =>
      have hstep : s.1.step (.setTokenizer t) = s.1.setTokenizer t := by
        simp [ConfiguredPool.step, hrun]
      simp only [accountedStep, hstep, hrun, InForce.next, ConfiguredPool.setTokenizer]
      simp only [Orderly] at horderly
      by_cases hicu : t = .icu
      · simpa [hicu] using h
      · by_cases hconfig : s.1.config.tokenizer = t
        · rw [if_pos hconfig] at horderly
          simpa [hicu, hconfig, InForce.set, ← horderly] using h
        · rw [if_neg hconfig] at horderly
          have hcustom : t = .custom := by cases t <;> first | rfl | contradiction
          simpa [hicu, hconfig, Setting.store] using h.begin_ (x := .tokenizer t) hcustom
  | configLocale l =>
    cases hrun : s.1.running with
    | some call => simpa [accountedStep, ConfiguredPool.step, hrun, InForce.next] using h
    | none =>
      have hstep : s.1.step (.configLocale l) = s.1.configLocale l := by
        simp [ConfiguredPool.step, hrun]
      simp only [accountedStep, hstep, hrun, InForce.next, ConfiguredPool.configLocale]
      exact h.begin_ (x := .locale l) trivial
  | proceed outcomes => exact h.proceed outcomes
  | create kind localeSet =>
    obtain ⟨hnormal, rfl, hloads⟩ := horderly
    exact h.create hnormal hloads kind
  | lend i => exact h.of_same rfl rfl fun c' hc' => exists_of_mem_modify hc'
  | release i closes =>
    cases closes with
    | true => exact h.of_same rfl rfl fun c' hc' => ⟨c', mem_of_mem_eraseIdx hc', rfl⟩
    | false => exact h.of_same rfl rfl fun c' hc' => exists_of_mem_modify hc'
  | clear kind =>
    refine h.of_same rfl rfl fun c' hc' => ?_
    obtain ⟨c, hc, rfl⟩ := mem_map.mp hc'
    obtain ⟨hmem, hstays⟩ := mem_filter.mp hc
    have hkind : c.kind ≠ kind := fun heq => by
      simp [heq, horderly c hmem heq] at hstays
    rw [if_neg hkind]
    exact ⟨c, hmem, rfl⟩
  | init isAttach => exact ⟨h.listed, h.inForce, h.running⟩

theorem Settled.used (h : Settled s) : SettingsUsed s :=
  ⟨fun t ht => (h.inForce (.tokenizer t) ht).2, fun l hl => (h.inForce (.locale l) hl).2⟩

end

theorem settled_openedPool (attachConfig : ConnSettings) :
    Settled (openedPool config attachConfig) := by
  refine ⟨nofun, fun x hx => ⟨?_, nofun⟩, nofun⟩
  cases x <;> exact Option.some.inj hx

theorem settingsUsed_run (attachConfig : ConnSettings) (steps : List SettingStep)
    (horderly : ∀ t ∈ trace accountedStep (openedPool config attachConfig) steps,
      Orderly t.pre t.call) :
    ∀ t ∈ trace accountedStep (openedPool config attachConfig) steps, SettingsUsed t.post :=
  trace_forall (I := Settled) (G := Orderly)
    (fun _ c h hc => ⟨h.step c hc, (h.step c hc).used⟩) (settled_openedPool _ _) horderly

def unset : ConnSettings := ⟨.none, "", .owner⟩

def retriedLocale : List SettingStep :=
  [.create .writers true, .configLocale "zh", .proceed [], .proceed [false], .configLocale "zh",
    .proceed [], .proceed [true], .proceed [], .create .readers true]

theorem settingsUsed_retried :
    (∀ t ∈ trace accountedStep (openedPool unset unset) retriedLocale,
      Orderly t.pre t.call) ∧
    ∀ t ∈ trace accountedStep (openedPool unset unset) retriedLocale,
      SettingsUsed t.post :=
  (and_iff_left_of_imp (settingsUsed_run _ _ _)).mpr (by decide +kernel)

theorem settingsUsed_failed_twice :
    ¬ ∀ t ∈ trace accountedStep (openedPool unset unset) [.create .writers true,
      .setTokenizer .custom, .proceed [], .proceed [false], .setTokenizer .custom],
      SettingsUsed t.post := by
  intro h
  have hlast := h _ (getLast_mem (by decide +kernel))
  have htokenizer := hlast.tokenizer .custom (by decide +kernel) _ mem_cons_self
  exact absurd htokenizer (by decide +kernel)

end RelationalStore.ConnPool

import SuperAi.Foundations.KeyValue
import SuperAi.Foundations.StepSystem
import Mathlib.Data.List.Perm.Basic

/-! # Secrets and their rotation

`SecretsLoader` (`secrets/secrets.loader.ts`) and the polls of `KeyRotationWatcher`
(`secrets/key.rotation.watcher.ts`), one answer of the provider after another, with rotations at any time. A poll
records a version before it has reloaded the secret, and the first poll records one without reloading. What is
known is loaded as long as neither of them is what decides (`known_loaded`). Log lines and alerts are left out.
-/
namespace SuperAi.Secrets
open SuperAi.Foundations
set_option autoImplicit false

structure KeyVersion where
  versionId : String
  createdAt : String
  status : String
  deriving DecidableEq, Repr

/-- A version of a secret at the provider, with its value. -/
structure SecretVersion where
  version : KeyVersion
  value : String
  deriving DecidableEq, Repr

/-- The versions of each secret, the newest one last. -/
abbrev Provider := KeyValue String (List SecretVersion)

def Provider.versions (provider : Provider) (secretName : String) : List SecretVersion :=
  (KeyValue.get provider secretName).getD []

/-- What `getSecret` returns when it succeeds. -/
def Provider.latestValue (provider : Provider) (secretName : String) : Option String :=
  (provider.versions secretName).getLast?.map SecretVersion.value

/-- The first one that no other was created after. -/
def findLatestVersion : List KeyVersion → Option KeyVersion
  | [] => none
  | first :: rest => some (rest.foldl (fun latest v => if latest.createdAt < v.createdAt then v else latest) first)

/-- Where the loader and the watcher are: at the answer of the provider that is awaited. -/
inductive WatcherPhase
  | loading (rest : List String)
  | idle
  | listing (secretName : String) (rest : List String)
  | reloading (secretName : String) (rest : List String)
  deriving DecidableEq, Repr

structure SecretsState where
  provider : Provider
  store : KeyValue String String := []
  knownVersions : KeyValue String String := []
  phase : WatcherPhase
  deriving DecidableEq, Repr

/-- A rotation, the start of a poll, or the end of a call of the provider. -/
inductive SecretsEvent
  | rotate (secretName : String) (new : SecretVersion)
  | poll
  | gotSecret (succeeds : Bool)
  | listed (answer : Option (List KeyVersion))
  deriving DecidableEq, Repr

namespace SecretsState

def startLoad (provider : Provider) (requiredSecrets : List String) : SecretsState where
  provider := provider
  phase := if requiredSecrets = [] then .idle else .loading requiredSecrets

/-- The next secret of a poll. -/
def pollPhase : List String → WatcherPhase
  | [] => .idle
  | secretName :: rest => .listing secretName rest

def loadPhase (rest : List String) : WatcherPhase := if rest = [] then .idle else .loading rest

/-- `none` is a call that cannot succeed, because there is no version. -/
def getSecret (s : SecretsState) (secretName : String) : Bool → Option (KeyValue String String)
  | true => (s.provider.latestValue secretName).map fun value => s.store.set secretName value
  | false => some s.store

/-- The rest of a poll after the versions of a secret have come. -/
def compareVersions (s : SecretsState) (secretName : String) (rest : List String) (versions : List KeyVersion) :
    SecretsState :=
  match findLatestVersion versions with
  | none => { s with phase := pollPhase rest }
  | some latestVersion =>
    match s.knownVersions.get secretName with
    | none =>
      { s with
        knownVersions := s.knownVersions.set secretName latestVersion.versionId
        phase := pollPhase rest }
    | some knownVersion =>
      if knownVersion ≠ latestVersion.versionId then
        { s with
          knownVersions := s.knownVersions.set secretName latestVersion.versionId
          phase := .reloading secretName rest }
      else { s with phase := pollPhase rest }

def step (requiredSecrets : List String) (s : SecretsState) : SecretsEvent → Option SecretsState
  | .rotate secretName new =>
    if ∀ old ∈ s.provider.versions secretName, old.version.versionId ≠ new.version.versionId then
      some { s with provider := s.provider.set secretName (s.provider.versions secretName ++ [new]) }
    else none
  | .poll =>
    match s.phase with
    | .idle => some { s with phase := pollPhase requiredSecrets }
    | _ => none
  | .gotSecret succeeds =>
    match s.phase with
    | .loading (secretName :: rest) =>
      (s.getSecret secretName succeeds).map fun store => { s with store := store, phase := loadPhase rest }
    | .reloading secretName rest =>
      (s.getSecret secretName succeeds).map fun store => { s with store := store, phase := pollPhase rest }
    | _ => none
  | .listed answer =>
    match s.phase, answer with
    | .listing _ rest, none => some { s with phase := pollPhase rest }
    | .listing secretName rest, some versions =>
      if versions.Perm ((s.provider.versions secretName).map SecretVersion.version) then
        some (s.compareVersions secretName rest versions)
      else none
    | _, _ => none

end SecretsState

def secretsSystem (requiredSecrets : List String) : StepSystem SecretsState SecretsEvent :=
  ⟨SecretsState.step requiredSecrets⟩

namespace SecretsState

/-- What the loader returns for the secret is the value of this version or of a newer one. -/
def LoadedSince (s : SecretsState) (secretName versionId : String) : Prop :=
  ∃ older version newer, s.provider.versions secretName = older ++ version :: newer ∧
    version.version.versionId = versionId ∧ ∃ loaded ∈ version :: newer, s.store.get secretName = some loaded.value

/-- What the watcher knows the loader has. -/
def KnownLoaded (s : SecretsState) : Prop :=
  ∀ secretName versionId, s.knownVersions.get secretName = some versionId → s.LoadedSince secretName versionId

/-- A version is recorded for the first time only if it is loaded, and a reload of a version that is not loaded
does not fail. -/
def RecordsLoaded (s : SecretsState) : SecretsEvent → Prop
  | .listed (some versions) =>
    match s.phase with
    | .listing secretName _ => ∀ latestVersion ∈ findLatestVersion versions,
        s.knownVersions.get secretName = none → s.LoadedSince secretName latestVersion.versionId
    | _ => True
  | .gotSecret false =>
    match s.phase with
    | .reloading secretName _ => ∀ knownVersion ∈ s.knownVersions.get secretName,
        s.LoadedSince secretName knownVersion
    | _ => True
  | _ => True

/-- During a poll what is known is loaded of every secret but the one that is being reloaded, and of that one it
is a version of the provider. While the secrets are loaded, nothing is known yet. -/
structure Tracked (s : SecretsState) : Prop where
  loading : ∀ rest, s.phase = .loading rest → s.knownVersions = []
  reloading : ∀ secretName rest, s.phase = .reloading secretName rest → ∀ versionId,
    s.knownVersions.get secretName = some versionId →
      ∃ version ∈ s.provider.versions secretName, version.version.versionId = versionId
  others : ∀ secretName versionId, s.knownVersions.get secretName = some versionId →
    (∀ rest, s.phase ≠ .reloading secretName rest) → s.LoadedSince secretName versionId

section
variable {s s' : SecretsState} {requiredSecrets rest : List String} {secretName versionId : String}

theorem findLatestVersion_mem {versions : List KeyVersion} {latest : KeyVersion}
    (h : findLatestVersion versions = some latest) : latest ∈ versions := by
  have hfold : ∀ (rest : List KeyVersion) (first : KeyVersion),
      rest.foldl (fun latest v => if latest.createdAt < v.createdAt then v else latest) first ∈ first :: rest := by
    intro rest
    induction rest with
    | nil => intro first; exact List.mem_singleton.mpr rfl
    | cons next rest ih =>
      intro first
      rw [List.foldl_cons]
      by_cases hlater : first.createdAt < next.createdAt
      · rw [if_pos hlater]
        exact List.mem_cons_of_mem _ (ih next)
      · rw [if_neg hlater]
        obtain heq | hmem := List.mem_cons.mp (ih first)
        · rw [heq]
          exact List.mem_cons_self
        · exact List.mem_cons_of_mem _ (List.mem_cons_of_mem _ hmem)
  cases versions with
  | nil => cases h
  | cons first rest =>
    obtain rfl := Option.some.inj h
    exact hfold rest first

/-! ## What counts as loaded -/

theorem versions_set (provider : Provider) (secretName other : String) (versions : List SecretVersion) :
    Provider.versions (KeyValue.set provider secretName versions) other =
      if other = secretName then versions else provider.versions other := by
  unfold Provider.versions
  by_cases hsame : other = secretName
  · subst hsame
    rw [KeyValue.get_set_self, if_pos rfl, Option.getD_some]
  · rw [KeyValue.get_set_of_ne hsame, if_neg hsame]

theorem LoadedSince.congr (h : s.LoadedSince secretName versionId) (hprovider : s'.provider = s.provider)
    (hstore : s'.store.get secretName = s.store.get secretName) : s'.LoadedSince secretName versionId := by
  unfold LoadedSince at h ⊢
  rw [hprovider, hstore]
  exact h

theorem LoadedSince.rotate {rotated : String} {new : SecretVersion} (h : s.LoadedSince secretName versionId) :
    ({ s with provider := s.provider.set rotated (s.provider.versions rotated ++ [new]) } :
      SecretsState).LoadedSince secretName versionId := by
  obtain ⟨older, version, newer, hversions, hid, loaded, hmem, hstore⟩ := h
  unfold LoadedSince
  rw [versions_set]
  by_cases hsame : secretName = rotated
  · subst hsame
    rw [if_pos rfl]
    refine ⟨older, version, newer ++ [new], ?_, hid, loaded, ?_, hstore⟩
    · rw [hversions, List.append_assoc, List.cons_append]
    · rw [← List.cons_append]
      exact List.mem_append_left _ hmem
  · rw [if_neg hsame]
    exact ⟨older, version, newer, hversions, hid, loaded, hmem, hstore⟩

/-- The value that `getSecret` returns is as new as any version. -/
theorem loadedSince_latest {value : String} {version : SecretVersion}
    (hversion : version ∈ s.provider.versions secretName) (hid : version.version.versionId = versionId)
    (hlatest : s.provider.latestValue secretName = some value) (hstore : s'.store.get secretName = some value)
    (hprovider : s'.provider = s.provider) : s'.LoadedSince secretName versionId := by
  obtain ⟨older, newer, hsplit⟩ := List.append_of_mem hversion
  obtain ⟨last, hlast, rfl⟩ := Option.map_eq_some_iff.mp hlatest
  refine ⟨older, version, newer, by rw [hprovider, hsplit], hid, last, ?_, hstore⟩
  rw [hsplit, List.getLast?_append_of_ne_nil _ (List.cons_ne_nil version newer)] at hlast
  exact List.mem_of_getLast? hlast

/-! ## Steps -/

theorem step_rotate {new : SecretVersion} (h : step requiredSecrets s (.rotate secretName new) = some s') :
    s' = { s with provider := s.provider.set secretName (s.provider.versions secretName ++ [new]) } :=
  (Option.some.inj (Option.ite_none_right_eq_some.mp h).2).symm

theorem step_poll (h : step requiredSecrets s .poll = some s') :
    s.phase = .idle ∧ s' = { s with phase := pollPhase requiredSecrets } := by
  cases hphase : s.phase with
  | idle =>
    simp only [step, hphase, Option.some.injEq] at h
    exact ⟨rfl, h.symm⟩
  | _ => simp [step, hphase] at h

/-- A secret has come, while they are loaded or for a reload. -/
theorem step_gotSecret {succeeds : Bool} (h : step requiredSecrets s (.gotSecret succeeds) = some s') :
    ∃ secretName rest phase store, s.getSecret secretName succeeds = some store ∧
      s' = { s with store := store, phase := phase } ∧
      ((s.phase = .loading (secretName :: rest) ∧ phase = loadPhase rest) ∨
        (s.phase = .reloading secretName rest ∧ phase = pollPhase rest)) := by
  cases hphase : s.phase with
  | loading names =>
    cases names with
    | nil => simp [step, hphase] at h
    | cons secretName rest =>
      simp only [step, hphase] at h
      obtain ⟨store, hstore, rfl⟩ := Option.map_eq_some_iff.mp h
      exact ⟨secretName, rest, _, store, hstore, rfl, .inl ⟨rfl, rfl⟩⟩
  | reloading secretName rest =>
    simp only [step, hphase] at h
    obtain ⟨store, hstore, rfl⟩ := Option.map_eq_some_iff.mp h
    exact ⟨secretName, rest, _, store, hstore, rfl, .inr ⟨rfl, rfl⟩⟩
  | idle => simp [step, hphase] at h
  | listing secretName rest => simp [step, hphase] at h

theorem step_listed {answer : Option (List KeyVersion)} (h : step requiredSecrets s (.listed answer) = some s') :
    ∃ secretName rest, s.phase = .listing secretName rest ∧
      ((answer = none ∧ s' = { s with phase := pollPhase rest }) ∨
        ∃ versions, answer = some versions ∧
          versions.Perm ((s.provider.versions secretName).map SecretVersion.version) ∧
          s' = s.compareVersions secretName rest versions) := by
  cases hphase : s.phase with
  | listing secretName rest =>
    cases answer with
    | none =>
      simp only [step, hphase, Option.some.injEq] at h
      exact ⟨secretName, rest, rfl, .inl ⟨rfl, h.symm⟩⟩
    | some versions =>
      simp only [step, hphase] at h
      obtain ⟨hperm, hstate⟩ := Option.ite_none_right_eq_some.mp h
      exact ⟨secretName, rest, rfl, .inr ⟨versions, rfl, hperm, (Option.some.inj hstate).symm⟩⟩
  | _ => simp [step, hphase] at h

/-- What the versions of a secret lead to: nothing new, a first record, or a reload. -/
theorem compareVersions_cases (s : SecretsState) (secretName : String) (rest : List String)
    (versions : List KeyVersion) :
    s.compareVersions secretName rest versions = { s with phase := pollPhase rest } ∨
      ∃ latestVersion, findLatestVersion versions = some latestVersion ∧
        ((s.knownVersions.get secretName = none ∧ s.compareVersions secretName rest versions =
          { s with
            knownVersions := s.knownVersions.set secretName latestVersion.versionId
            phase := pollPhase rest }) ∨
        s.compareVersions secretName rest versions =
          { s with
            knownVersions := s.knownVersions.set secretName latestVersion.versionId
            phase := .reloading secretName rest }) := by
  unfold compareVersions
  cases hlatest : findLatestVersion versions with
  | none => exact .inl rfl
  | some latestVersion =>
    cases hknown : s.knownVersions.get secretName with
    | none => exact .inr ⟨latestVersion, rfl, .inl ⟨rfl, rfl⟩⟩
    | some knownVersion =>
      dsimp only
      by_cases hnew : knownVersion ≠ latestVersion.versionId
      · rw [if_pos hnew]
        exact .inr ⟨latestVersion, rfl, .inr rfl⟩
      · rw [if_neg hnew]
        exact .inl rfl

/-! ## Known versions are loaded -/

theorem pollPhase_ne_loading (rest names : List String) : pollPhase rest ≠ .loading names := by
  cases rest <;> exact WatcherPhase.noConfusion

theorem pollPhase_ne_reloading (rest names : List String) (secretName : String) :
    pollPhase rest ≠ .reloading secretName names := by
  cases rest <;> exact WatcherPhase.noConfusion

theorem loadPhase_ne_reloading (rest names : List String) (secretName : String) :
    loadPhase rest ≠ .reloading secretName names := by
  unfold loadPhase
  split <;> exact WatcherPhase.noConfusion

/-- Where the poll goes on with the next secret, or ends, everything that is known is loaded. -/
theorem Tracked.of_pollPhase (hphase : s.phase = pollPhase rest) (hloaded : KnownLoaded s) : Tracked s where
  loading names h := absurd (hphase.symm.trans h) (pollPhase_ne_loading rest names)
  reloading secretName names h := absurd (hphase.symm.trans h) (pollPhase_ne_reloading rest names secretName)
  others secretName versionId hknown _ := hloaded secretName versionId hknown

theorem Tracked.rotate {rotated : String} {new : SecretVersion} (h : Tracked s) :
    Tracked { s with provider := s.provider.set rotated (s.provider.versions rotated ++ [new]) } where
  loading := h.loading
  reloading secretName rest hphase versionId hknown := by
    obtain ⟨version, hmem, hid⟩ := h.reloading secretName rest hphase versionId hknown
    refine ⟨version, ?_, hid⟩
    rw [versions_set]
    by_cases hsame : secretName = rotated
    · subst hsame
      rw [if_pos rfl]
      exact List.mem_append_left _ hmem
    · rw [if_neg hsame]
      exact hmem
  others secretName versionId hknown hphase := (h.others secretName versionId hknown hphase).rotate

/-- A secret that has come is loaded, and one that has not was loaded already. -/
theorem Tracked.gotSecret {succeeds : Bool} (h : Tracked s) (hguard : RecordsLoaded s (.gotSecret succeeds))
    (hstep : step requiredSecrets s (.gotSecret succeeds) = some s') : Tracked s' := by
  obtain ⟨name, rest, phase, store, hstore, rfl, ⟨hphase, rfl⟩ | ⟨hphase, rfl⟩⟩ := step_gotSecret hstep
  · have hnothing := h.loading _ hphase
    refine ⟨fun _ _ => hnothing, fun other names hother => absurd hother (loadPhase_ne_reloading _ _ _), ?_⟩
    intro other versionId hknown
    dsimp only at hknown
    rw [hnothing] at hknown
    cases hknown
  · refine Tracked.of_pollPhase rfl ?_
    intro other versionId hknown
    by_cases hsame : other = name
    · subst hsame
      cases succeeds with
      | false =>
        obtain rfl := Option.some.inj hstore
        simp only [RecordsLoaded, hphase] at hguard
        exact (hguard versionId hknown).congr rfl rfl
      | true =>
        obtain ⟨value, hlatest, rfl⟩ := Option.map_eq_some_iff.mp hstore
        obtain ⟨version, hmem, hid⟩ := h.reloading other rest hphase versionId hknown
        exact loadedSince_latest hmem hid hlatest (KeyValue.get_set_self _ _ _) rfl
    · have hother : ∀ names, s.phase ≠ .reloading other names := by
        intro names heq
        rw [hphase] at heq
        exact hsame (WatcherPhase.reloading.inj heq).1.symm
      refine (h.others other versionId hknown hother).congr rfl ?_
      cases succeeds with
      | false =>
        obtain rfl := Option.some.inj hstore
        rfl
      | true =>
        obtain ⟨value, -, rfl⟩ := Option.map_eq_some_iff.mp hstore
        exact KeyValue.get_set_of_ne hsame

theorem Tracked.listed {answer : Option (List KeyVersion)} (h : Tracked s) (hguard : RecordsLoaded s (.listed answer))
    (hstep : step requiredSecrets s (.listed answer) = some s') : Tracked s' := by
  obtain ⟨name, rest, hphase, hanswer⟩ := step_listed hstep
  have hloaded : KnownLoaded s := by
    intro secretName versionId hknown
    refine h.others secretName versionId hknown fun names heq => ?_
    rw [hphase] at heq
    cases heq
  have hsame : Tracked { s with phase := pollPhase rest } :=
    Tracked.of_pollPhase rfl fun secretName versionId hknown => (hloaded secretName versionId hknown).congr rfl rfl
  obtain ⟨-, rfl⟩ | ⟨versions, rfl, hperm, rfl⟩ := hanswer
  · exact hsame
  · obtain heq | ⟨latestVersion, hlatest, ⟨hfirst, heq⟩ | heq⟩ := compareVersions_cases s name rest versions
    · rw [heq]
      exact hsame
    · -- The version is recorded for the first time.
      rw [heq]
      refine Tracked.of_pollPhase rfl ?_
      intro other versionId hknown
      by_cases hname : other = name
      · subst hname
        obtain rfl := Option.some.inj (hknown.symm.trans (KeyValue.get_set_self _ _ _))
        simp only [RecordsLoaded, hphase] at hguard
        exact (hguard latestVersion hlatest hfirst).congr rfl rfl
      · have hold : s.knownVersions.get other = some versionId := by
          rw [← hknown]
          exact (KeyValue.get_set_of_ne hname).symm
        exact (hloaded other versionId hold).congr rfl rfl
    · -- It is recorded, and the secret is still to be reloaded.
      rw [heq]
      refine ⟨fun names hother => absurd hother WatcherPhase.noConfusion, ?_, ?_⟩
      · intro other names hother versionId hknown
        obtain ⟨rfl, rfl⟩ := WatcherPhase.reloading.inj hother
        obtain rfl := Option.some.inj (hknown.symm.trans (KeyValue.get_set_self _ _ _))
        obtain ⟨version, hmem, heq'⟩ := List.mem_map.mp (hperm.mem_iff.mp (findLatestVersion_mem hlatest))
        exact ⟨version, hmem, congrArg KeyVersion.versionId heq'⟩
      · intro other versionId hknown hother
        have hname : other ≠ name := fun heq' => hother rest (by rw [heq'])
        have hold : s.knownVersions.get other = some versionId := by
          rw [← hknown]
          exact (KeyValue.get_set_of_ne hname).symm
        exact (hloaded other versionId hold).congr rfl rfl

theorem tracked_step {e : SecretsEvent} (h : Tracked s) (hguard : RecordsLoaded s e)
    (hstep : (secretsSystem requiredSecrets).step s e = some s') : Tracked s' := by
  change step requiredSecrets s e = some s' at hstep
  cases e with
  | rotate secretName new =>
    rw [step_rotate hstep]
    exact h.rotate
  | poll =>
    obtain ⟨hphase, rfl⟩ := step_poll hstep
    refine Tracked.of_pollPhase rfl fun secretName versionId hknown => ?_
    refine (h.others secretName versionId hknown fun names heq => ?_).congr rfl rfl
    rw [hphase] at heq
    cases heq
  | gotSecret succeeds => exact h.gotSecret hguard hstep
  | listed answer => exact h.listed hguard hstep

/-- **Known versions are loaded.** From any provider, after the secrets have been loaded and between polls, with
rotations at any time and any calls that fail: as long as no version that is not loaded is recorded for the first
time, and no reload of one fails, what the loader returns for a secret is the value of the known version or of a
newer one. -/
theorem known_loaded (requiredSecrets : List String) (provider : Provider) {events : List SecretsEvent}
    {t : SecretsState}
    (h : (secretsSystem requiredSecrets).GuardedRun RecordsLoaded (startLoad provider requiredSecrets) events t)
    (hidle : t.phase = .idle) : KnownLoaded t := by
  have hstart : Tracked (startLoad provider requiredSecrets) := by
    refine ⟨fun _ _ => rfl, ?_, ?_⟩
    · intro secretName rest _ versionId hknown
      cases hknown
    · intro secretName versionId hknown
      cases hknown
  have htracked := h.invariant (fun _ _ _ => tracked_step) hstart
  intro secretName versionId hknown
  refine htracked.others secretName versionId hknown fun rest hphase => ?_
  rw [hidle] at hphase
  cases hphase

end
end SecretsState

/-! ## A rotation that is loaded, one whose reload fails, and one before the first poll -/

def keyVersion (n : ℕ) : SecretVersion :=
  if n = 1 then ⟨⟨"v1", "2024-01-01T00:00:00.000Z", "Enabled"⟩, "first"⟩
  else ⟨⟨"v2", "2024-02-01T00:00:00.000Z", "Enabled"⟩, "second"⟩

def oneVersion : Provider := [("API_KEY", [keyVersion 1])]

def listOne : SecretsEvent := .listed (some [(keyVersion 1).version])

def listTwo : SecretsEvent := .listed (some [(keyVersion 1).version, (keyVersion 2).version])

theorem rotation_loaded : ∃ t, (secretsSystem ["API_KEY"]).run (.startLoad oneVersion ["API_KEY"])
      [.gotSecret true, .poll, listOne, .rotate "API_KEY" (keyVersion 2), .poll, listTwo, .gotSecret true] = some t ∧
    SecretsState.KnownLoaded t := by
  have hguarded : ∃ t, (secretsSystem ["API_KEY"]).GuardedRun SecretsState.RecordsLoaded
      (.startLoad oneVersion ["API_KEY"])
      [.gotSecret true, .poll, listOne, .rotate "API_KEY" (keyVersion 2), .poll, listTwo, .gotSecret true] t ∧
      t.phase = .idle := by
    refine ⟨_, .cons trivial rfl (.cons trivial rfl (.cons ?_ rfl (.cons trivial rfl (.cons trivial rfl (.cons ?_ rfl
      (.cons trivial rfl (.nil _))))))), rfl⟩
    · intro latestVersion hlatest _
      obtain rfl := Option.some.inj hlatest
      exact ⟨[], keyVersion 1, [], rfl, rfl, keyVersion 1, List.mem_singleton.mpr rfl, rfl⟩
    · intro latestVersion _ hknown
      cases hknown
  obtain ⟨t, hrun, hidle⟩ := hguarded
  exact ⟨t, hrun.run, SecretsState.known_loaded _ _ hrun hidle⟩

/-- After a reload that fails, the polls see the version that they know, and the old value stays. -/
theorem failed_reload_stays : ∃ (requiredSecrets : List String) (provider : Provider) (events : List SecretsEvent)
    (t : SecretsState), (secretsSystem requiredSecrets).run (.startLoad provider requiredSecrets) events = some t ∧
      t.phase = .idle ∧ ¬ SecretsState.KnownLoaded t := by
  refine ⟨["API_KEY"], oneVersion, [.gotSecret true, .poll, listOne, .rotate "API_KEY" (keyVersion 2), .poll, listTwo,
    .gotSecret false, .poll, listTwo], _, rfl, rfl, fun hknown => ?_⟩
  obtain ⟨older, version, newer, hversions, hid, loaded, hmem, hstore⟩ := hknown "API_KEY" "v2" rfl
  change [keyVersion 1, keyVersion 2] = older ++ version :: newer at hversions
  have hvalue : loaded.value = "first" := (Option.some.inj hstore).symm
  have hsecond : older = [keyVersion 1] ∧ newer = [] ∧ version = keyVersion 2 := by
    cases older with
    | nil =>
      obtain ⟨rfl, -⟩ := List.cons.inj hversions
      exact absurd hid (by decide)
    | cons first older =>
      obtain ⟨rfl, htail⟩ := List.cons.inj hversions
      cases older with
      | nil =>
        obtain ⟨rfl, rfl⟩ := List.cons.inj htail
        exact ⟨rfl, rfl, rfl⟩
      | cons second older => simp at htail
  obtain ⟨-, rfl, rfl⟩ := hsecond
  obtain rfl := List.mem_singleton.mp hmem
  exact absurd hvalue (by decide)

end SuperAi.Secrets

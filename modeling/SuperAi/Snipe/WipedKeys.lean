import SuperAi.Snipe.SessionKeys

/-! # Wiped keys

A key that no session holds any more has been wiped, where no session is replaced, the primary sessions end through
`stopSession` or `cleanup`, and a start of burst sessions puts its keys into the map that its user still has.
-/
namespace SuperAi.Snipe
open SuperAi.Foundations
set_option autoImplicit false

/-! ## The property and its condition -/

namespace KeyStore

/-- A primary session, or one in the map of a user, has the key. -/
def Reachable (s : KeyStore) (key : ℕ) : Prop :=
  (∃ userId session, s.sessions.get userId = some session ∧ session.key = key) ∨
    ∃ userId map walletId session, s.burstMap userId = some map ∧ KeyValue.get map walletId = some session ∧
      session.key = key

/-- Every key that was stored is wiped, unless it can still be reached. -/
def KeysWiped (s : KeyStore) : Prop := ∀ key ∈ s.stored, key ∈ s.wiped ∨ s.Reachable key

end KeyStore

/-- No primary session is replaced, found to have expired by `getSession`, or there at the end; a decrypted key goes
into the map that the user has, for a wallet without a session. -/
def Tidy (s : KeyStore) : ℤ × KeyEvent → Prop
  | (_, .startSession userId) => s.sessions.get userId = none
  | (now, .getSession userId) => ∀ session ∈ s.sessions.get userId, now ≤ session.expiresAt
  | (_, .decrypted i) =>
    match s.starts[i]? with
    | some (.decrypt userId map _ walletId _) =>
      s.burstSessions.get userId = some map ∧ (s.maps[map]?.bind (KeyValue.get · walletId)) = none
    | _ => True
  | (_, .destroy) => s.sessions = []
  | _ => True

variable {s s' t : KeyStore} {userId : String} {i key : ℕ}

/-! ## Steps -/

namespace KeyStore

/-- What stays reachable or is wiped keeps the property. -/
theorem KeysWiped.of_reachable (h : s.KeysWiped) (hstored : s'.stored = s.stored) (hwiped : s.wiped ⊆ s'.wiped)
    (hreach : ∀ key, s.Reachable key → key ∈ s'.wiped ∨ s'.Reachable key) : s'.KeysWiped := by
  intro key hkey
  rw [hstored] at hkey
  rcases h key hkey with hwipe | hheld
  · exact .inl (hwiped hwipe)
  · exact hreach key hheld

theorem mem_keys {map : KeyValue String KeySession} {walletId : String} {session : KeySession}
    (h : KeyValue.get map walletId = some session) : session.key ∈ keys map :=
  List.mem_map_of_mem (f := fun entry : String × KeySession => entry.2.key) (KeyValue.mem_of_get h)

/-- A session that has expired is among those that are wiped; any other one stays. -/
theorem get_live {map : KeyValue String KeySession} {walletId : String} {session : KeySession}
    (h : KeyValue.get map walletId = some session) :
    session.key ∈ keys (map.filter s.hasExpired) ∨
      KeyValue.get (map.filter fun entry => !s.hasExpired entry) walletId = some session := by
  by_cases hexpired : s.hasExpired (walletId, session) = true
  · exact .inl (mem_keys (KeyValue.get_filter h hexpired))
  · right
    apply KeyValue.get_filter h
    simpa using hexpired

theorem burstMap_del_of_ne {other : String} (h : other ≠ userId) :
    { s with burstSessions := s.burstSessions.del userId }.burstMap other = s.burstMap other := by
  unfold burstMap
  dsimp only
  rw [KeyValue.get_del_of_ne h]

theorem KeysWiped.startSession (h : s.KeysWiped) (hnone : s.sessions.get userId = none) :
    (s.startSession userId).KeysWiped := by
  intro key hkey
  rcases List.mem_append.mp hkey with hold | hnew
  · rcases h key hold with hwipe | ⟨other, session, hget, hsession⟩ | hburst
    · exact .inl hwipe
    · have hother : other ≠ userId := by
        rintro rfl
        cases hnone.symm.trans hget
      exact .inr (.inl ⟨other, session, (KeyValue.get_set_of_ne hother).trans hget, hsession⟩)
    · exact .inr (.inr hburst)
  · right
    left
    exact ⟨userId, _, KeyValue.get_set_self _ _ _, (List.mem_singleton.mp hnew).symm⟩

theorem KeysWiped.stopSession (h : s.KeysWiped) (userId : String) : (s.stopSession userId).KeysWiped := by
  unfold KeyStore.stopSession
  split
  · exact h
  · rename_i session hsession
    refine h.of_reachable rfl (List.subset_append_left _ _) ?_
    rintro key (⟨other, session', hget, rfl⟩ | hburst)
    · by_cases hother : other = userId
      · subst hother
        obtain rfl := Option.some.inj (hsession.symm.trans hget)
        exact .inl (List.mem_append_right _ List.mem_cons_self)
      · exact .inr (.inl ⟨other, session', (KeyValue.get_del_of_ne hother).trans hget, rfl⟩)
    · exact .inr (.inr hburst)

theorem getSession_of_live (hlive : ∀ session ∈ s.sessions.get userId, s.clock ≤ session.expiresAt) :
    s.getSession userId = s := by
  unfold KeyStore.getSession
  split
  · rfl
  · rename_i session hsession
    exact if_neg (not_lt_of_ge (hlive session hsession))

/-- The fields that reachability does not look at. -/
theorem KeysWiped.of_eq (h : s.KeysWiped) (hsessions : s'.sessions = s.sessions)
    (hburst : s'.burstSessions = s.burstSessions) (hmaps : s'.maps = s.maps) (hstored : s'.stored = s.stored)
    (hwiped : s'.wiped = s.wiped) : s'.KeysWiped := by
  unfold KeysWiped Reachable burstMap
  rw [hsessions, hburst, hmaps, hstored, hwiped]
  exact h

theorem KeysWiped.startBurst (h : s.KeysWiped) (userId : String) (wallets : List String) :
    (s.startBurst userId wallets).KeysWiped := by
  unfold KeyStore.startBurst
  split
  · exact h.of_eq rfl rfl rfl rfl rfl
  · rename_i hnone
    refine h.of_reachable rfl (List.Subset.refl _) ?_
    rintro key (hprimary | ⟨other, map, walletId, session, hmap, hget⟩)
    · exact .inr (.inl hprimary)
    · refine .inr (.inr ⟨other, map, walletId, session, ?_, hget⟩)
      obtain ⟨ref, href, hentries⟩ := Option.bind_eq_some_iff.mp hmap
      have hother : other ≠ userId := by
        rintro rfl
        cases hnone.symm.trans href
      unfold burstMap
      dsimp only
      rw [KeyValue.get_set_of_ne hother, href]
      change (s.maps ++ [[]])[ref]? = some map
      rw [List.getElem?_append_left (List.getElem?_eq_some_iff.mp hentries).1]
      exact hentries

/-- A map object changes: its sessions stay in it or are wiped. -/
theorem KeysWiped.setMap (h : s.KeysWiped) {map : ℕ} {entries entries' : KeyValue String KeySession} {wiped : List ℕ}
    (hentries : s.maps[map]? = some entries)
    (hget : ∀ walletId session, KeyValue.get entries walletId = some session →
      session.key ∈ wiped ∨ KeyValue.get entries' walletId = some session) :
    { s with maps := s.maps.set map entries', wiped := s.wiped ++ wiped }.KeysWiped := by
  refine h.of_reachable rfl (List.subset_append_left _ _) ?_
  rintro key (hprimary | ⟨other, found, walletId, session, hfound, hsession, rfl⟩)
  · exact .inr (.inl hprimary)
  · obtain ⟨ref, href, hat⟩ := Option.bind_eq_some_iff.mp hfound
    by_cases hsame : ref = map
    · subst hsame
      obtain rfl := Option.some.inj (hentries.symm.trans hat)
      rcases hget walletId session hsession with hwipe | hstays
      · exact .inl (List.mem_append_right _ hwipe)
      · refine .inr (.inr ⟨other, entries', walletId, session, ?_, hstays, rfl⟩)
        refine Option.bind_eq_some_iff.mpr ⟨ref, href, ?_⟩
        exact List.getElem?_set_self (List.getElem?_eq_some_iff.mp hentries).1
    · refine .inr (.inr ⟨other, found, walletId, session, ?_, hsession, rfl⟩)
      refine Option.bind_eq_some_iff.mpr ⟨ref, href, ?_⟩
      exact (List.getElem?_set_ne (Ne.symm hsame)).trans hat

theorem KeysWiped.decrypted (h : s.KeysWiped) {map : ℕ} {entries : KeyValue String KeySession} {expiresAt : ℤ}
    {walletId : String} {wallets : List String} (hentries : s.maps[map]? = some entries)
    (huser : s.burstSessions.get userId = some map) (hnone : KeyValue.get entries walletId = none) :
    (s.decrypted i userId map entries expiresAt walletId wallets).KeysWiped := by
  have hmap : { s with
      maps := s.maps.set map (entries.set walletId ⟨s.stored.length, expiresAt⟩), wiped := s.wiped ++ [] }.KeysWiped := by
    refine h.setMap hentries fun other session hget => .inr ?_
    have hother : other ≠ walletId := by
      rintro rfl
      cases hnone.symm.trans hget
    exact (KeyValue.get_set_of_ne hother).trans hget
  intro key hkey
  rcases List.mem_append.mp hkey with hold | hnew
  · rcases hmap key hold with hwipe | hreach
    · exact .inl ((List.append_nil s.wiped) ▸ hwipe)
    · exact .inr hreach
  · have hget := KeyValue.get_set_self entries walletId (⟨s.stored.length, expiresAt⟩ : KeySession)
    refine .inr (.inr ⟨userId, _, walletId, _, ?_, hget, (List.mem_singleton.mp hnew).symm⟩)
    refine Option.bind_eq_some_iff.mpr ⟨map, huser, ?_⟩
    exact List.getElem?_set_self (List.getElem?_eq_some_iff.mp hentries).1

theorem KeysWiped.stopBurstSessions (h : s.KeysWiped) (userId : String) : (s.stopBurstSessions userId).KeysWiped := by
  unfold KeyStore.stopBurstSessions
  split
  · exact h
  · rename_i map hmap
    refine h.of_reachable rfl (List.subset_append_left _ _) ?_
    rintro key (hprimary | ⟨other, found, walletId, session, hfound, hget, rfl⟩)
    · exact .inr (.inl hprimary)
    · by_cases hother : other = userId
      · subst hother
        obtain rfl := Option.some.inj (hmap.symm.trans hfound)
        exact .inl (List.mem_append_right _ (mem_keys hget))
      · exact .inr (.inr ⟨other, found, walletId, session, (burstMap_del_of_ne hother).trans hfound, hget, rfl⟩)

theorem KeysWiped.getBurstSessions (h : s.KeysWiped) (userId : String) : (s.getBurstSessions userId).KeysWiped := by
  unfold KeyStore.getBurstSessions
  split
  · exact h
  · split
    · exact h
    · rename_i hentries
      exact h.setMap hentries fun walletId session hget => get_live hget

theorem KeysWiped.dropEmpty (h : s.KeysWiped) (userId : String) : (s.dropEmpty userId).KeysWiped := by
  unfold KeyStore.dropEmpty
  split
  · rename_i hempty
    refine h.of_reachable rfl (List.Subset.refl _) ?_
    rintro key (hprimary | ⟨other, found, walletId, session, hfound, hget, rfl⟩)
    · exact .inr (.inl hprimary)
    · by_cases hother : other = userId
      · subst hother
        obtain rfl := Option.some.inj (hempty.symm.trans hfound)
        cases hget
      · exact .inr (.inr ⟨other, found, walletId, session, (burstMap_del_of_ne hother).trans hfound, hget, rfl⟩)
  · exact h

theorem KeysWiped.cleanup (h : s.KeysWiped) : s.cleanup.KeysWiped := by
  have hfold : ∀ (users : List String) (s : KeyStore), s.KeysWiped →
      (users.foldl (fun s userId => (s.getBurstSessions userId).dropEmpty userId) s).KeysWiped := by
    intro users
    induction users with
    | nil => exact fun s h => h
    | cons userId users ih => exact fun s h => ih _ ((h.getBurstSessions userId).dropEmpty userId)
  apply hfold
  refine h.of_reachable rfl (List.subset_append_left _ _) ?_
  rintro key (⟨other, session, hget, rfl⟩ | hburst)
  · rcases get_live (s := s) hget with hwipe | hstays
    · exact .inl (List.mem_append_right _ hwipe)
    · exact .inr (.inl ⟨other, session, hstays, rfl⟩)
  · exact .inr (.inr hburst)

theorem KeysWiped.destroy (h : s.KeysWiped) (hnone : s.sessions = []) : s.destroy.KeysWiped := by
  refine h.of_reachable rfl (List.subset_append_left _ _) ?_
  rintro key (⟨other, session, hget, rfl⟩ | ⟨other, found, walletId, session, hfound, hget, rfl⟩)
  · rw [hnone] at hget
    cases hget
  · left
    apply List.mem_append_right
    obtain ⟨ref, href, hat⟩ := Option.bind_eq_some_iff.mp hfound
    refine List.mem_flatMap.mpr ⟨(other, ref), KeyValue.mem_of_get href, ?_⟩
    rw [hat]
    exact mem_keys hget

theorem KeysWiped.stepAt {e : KeyEvent} (h : s.KeysWiped) (htidy : Tidy s (s.clock, e))
    (hstep : s.stepAt e = some s') : s'.KeysWiped := by
  cases e with
  | startSession userId =>
    obtain rfl := Option.some.inj hstep
    exact h.startSession htidy
  | stopSession userId =>
    obtain rfl := Option.some.inj hstep
    exact h.stopSession userId
  | getSession userId =>
    obtain rfl := Option.some.inj hstep
    rw [getSession_of_live htidy]
    exact h
  | startBurst userId wallets =>
    obtain ⟨-, hstart⟩ := Option.ite_none_left_eq_some.mp hstep
    obtain rfl := Option.some.inj hstart
    exact h.startBurst userId wallets
  | armNext i =>
    obtain ⟨start, -, harm⟩ := Option.bind_eq_some_iff.mp hstep
    cases start with
    | arm userId map expiresAt wallets =>
      cases wallets with
      | nil =>
        obtain rfl := Option.some.inj harm
        exact h.of_eq rfl rfl rfl rfl rfl
      | cons walletId wallets =>
        obtain rfl := Option.some.inj harm
        unfold KeyStore.armNext
        split <;> exact h.of_eq rfl rfl rfl rfl rfl
    | _ => cases harm
  | decrypted i =>
    obtain ⟨start, hstart, hdecrypt⟩ := Option.bind_eq_some_iff.mp hstep
    cases start with
    | decrypt userId map expiresAt walletId wallets =>
      obtain ⟨entries, hentries, rfl⟩ := Option.map_eq_some_iff.mp hdecrypt
      unfold Tidy at htidy
      dsimp only at htidy
      rw [hstart] at htidy
      obtain ⟨huser, hnone⟩ := htidy
      rw [hentries] at hnone
      exact h.decrypted hentries huser hnone
    | _ => cases hdecrypt
  | decryptFails i =>
    obtain ⟨start, -, hfails⟩ := Option.bind_eq_some_iff.mp hstep
    cases start with
    | decrypt userId map expiresAt walletId wallets =>
      obtain rfl := Option.some.inj hfails
      exact h.of_eq rfl rfl rfl rfl rfl
    | _ => cases hfails
  | stopBurstSessions userId =>
    obtain rfl := Option.some.inj hstep
    exact h.stopBurstSessions userId
  | getBurstSessions userId =>
    obtain rfl := Option.some.inj hstep
    exact h.getBurstSessions userId
  | cleanup =>
    obtain rfl := Option.some.inj hstep
    exact h.cleanup
  | destroy =>
    obtain rfl := Option.some.inj hstep
    exact h.destroy htidy

end KeyStore

theorem keysWiped_step {e : ℤ × KeyEvent} (h : s.KeysWiped) (htidy : Tidy s e)
    (hstep : sessionKeys.step s e = some s') : s'.KeysWiped := by
  obtain ⟨-, hat⟩ := Option.ite_none_right_eq_some.mp hstep
  have hlater : { s with clock := e.1 }.KeysWiped := h.of_eq rfl rfl rfl rfl rfl
  exact hlater.stepAt htidy hat

/-! ## Runs -/

/-- **Wiped keys.** In a tidy run every key that was ever stored is wiped, unless a session can still be found that
holds it. -/
theorem keysWiped {clock : ℤ} {steps : List (ℤ × KeyEvent)}
    (hrun : sessionKeys.GuardedRun Tidy { clock } steps t) : t.KeysWiped :=
  hrun.invariant (fun _ _ _ h htidy hstep => keysWiped_step h htidy hstep) (fun _ hkey => nomatch hkey)

/-! ## Two runs -/

instance (s : KeyStore) : (e : ℤ × KeyEvent) → Decidable (Tidy s e)
  | (_, .startSession userId) => inferInstanceAs (Decidable (s.sessions.get userId = none))
  | (now, .getSession userId) =>
    inferInstanceAs (Decidable (∀ session ∈ s.sessions.get userId, now ≤ session.expiresAt))
  | (_, .decrypted i) => by
    unfold Tidy
    dsimp only
    split <;> infer_instance
  | (_, .destroy) => inferInstanceAs (Decidable (s.sessions = []))
  | (_, .stopSession _) | (_, .startBurst _ _) | (_, .armNext _) | (_, .decryptFails _) | (_, .stopBurstSessions _)
  | (_, .getBurstSessions _) | (_, .cleanup) => inferInstanceAs (Decidable True)

/-- A primary session and a burst session, both ended by their user. -/
def tidySteps : List (ℤ × KeyEvent) :=
  [(0, .startSession "u1"), (1, .startBurst "u1" ["w1"]), (1, .armNext 0), (5, .decrypted 0), (9, .getSession "u1"),
    (10, .stopSession "u1"), (11, .stopBurstSessions "u1"), (12, .startSession "u1")]

theorem tidySteps_keysWiped : ∃ t, sessionKeys.run { clock := 0 } tidySteps = some t ∧
    t.stored = [0, 1, 2] ∧ t.wiped = [0, 1] ∧ t.KeysWiped := by
  have hmap : (sessionKeys.guardedRun Tidy { clock := 0 } tidySteps).map (fun t => (t.stored, t.wiped)) =
      some ([0, 1, 2], [0, 1]) := by decide +kernel
  obtain ⟨t, ht, hkeys⟩ := Option.map_eq_some_iff.mp hmap
  obtain ⟨hstored, hwiped⟩ := Prod.mk.inj hkeys
  have hrun := StepSystem.GuardedRun.of_guardedRun ht
  exact ⟨t, hrun.run, hstored, hwiped, keysWiped hrun⟩

theorem restarted_session_not_wiped : ¬ ∀ (clock : ℤ) (steps : List (ℤ × KeyEvent)) (t : KeyStore),
    sessionKeys.run { clock } steps = some t → t.KeysWiped := by
  intro h
  obtain ⟨t, ht, hstored, hwiped, hsessions, hburst⟩ : ∃ t,
      sessionKeys.run { clock := 0 } [(0, .startSession "u1"), (1, .startSession "u1")] = some t ∧
        t.stored = [0, 1] ∧ t.wiped = [] ∧ t.sessions = [("u1", ⟨1, 3600001⟩)] ∧ t.burstSessions = [] :=
    ⟨_, rfl, rfl, rfl, rfl, rfl⟩
  have hkey := h 0 _ t ht 0 (by rw [hstored]; exact List.mem_cons_self)
  rcases hkey with hwipe | ⟨userId, session, hget, hzero⟩ | ⟨userId, map, walletId, session, hmap, -⟩
  · rw [hwiped] at hwipe
    cases hwipe
  · rw [hsessions] at hget
    obtain hmem := List.mem_singleton.mp (KeyValue.mem_of_get hget)
    obtain ⟨-, rfl⟩ := Prod.mk.inj hmem
    cases hzero
  · unfold KeyStore.burstMap at hmap
    rw [hburst] at hmap
    cases hmap

end SuperAi.Snipe

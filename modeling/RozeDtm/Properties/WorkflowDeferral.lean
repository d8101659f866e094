import RozeDtm.Model.Service.Compat
import RozeDtm.Model.Service.Config
import RozeDtm.Properties.FirstCompletion
import RozeDtm.Properties.NextRecovery
import RozeDtm.Serial.Undisturbed

/-!
# The deferral of a callback Workflow

A callback Workflow whose callback gives no result is deferred.  The store accepts a delay of a
day at most, and so do the options of a transaction, but the configuration of the service has no
bound on the back-off, which is the delay when it is larger.

* `undisturbed_deferCallbackWorkflow`: what a deferral leaves.
* `deferral_sound_iff`: the configurations with which no deferral is refused.
-/

namespace RozeDtm

open Conc

/-- The callback does not report a failure. -/
def Outcome.NotFailed (c : Outcome) : Prop := ∀ reason, c.callback ≠ .ok (.failed reason)

/-- A record that was deferred at a time that the clock may show, and for `bound` at most. -/
def DeferredWithin (shows : Nat → Prop) (bound : Nat) (tx : Transaction) : Prop :=
  ∃ attempted next, shows attempted ∧
    tx.metadata["dtm.callback.last_attempt_millis"]? = some (toString attempted) ∧
    transactionNextRecoveryMillis tx = some next ∧ attempted < next ∧ next ≤ attempted + bound

/-- The largest delay of a transaction with these options. -/
def Dtm.delayBound (dtm : Dtm) (options : TransactionOptions) : Nat :=
  max dtm.options.maxRetryBackoffMillis (options.retryIntervalMillis.getD 0)

/-- The record keeps the options of the transaction. -/
abbrev KeepsOptions (options : TransactionOptions) (s : Transaction) : Prop := s.options = options

/-- No deferral is refused: the delays are valid, and a recovery that no completion comes before
returns the record that it has deferred. -/
structure DeferralSound (dtm : Dtm) (gid : String) (options : TransactionOptions)
    (shows : Nat → Prop) (w : World) : Prop where
  valid : ∀ attempted backoff outcome, outcome ∈ deferralOutcomes →
    (dtm.callbackDelay options attempted backoff outcome).validate = .ok ()
  recovers : ∀ i, (undisturbed gid (KeepsOptions options) shows Outcome.NotFailed).Runs
    (fun _ => True) i (dtm.recoverCallbackWorkflow gid)
    (fun tx w => w.txs[gid]? = some tx ∧ DeferredWithin shows (dtm.delayBound options) tx)
    (fun _ _ => False) w

section Deferral

variable {dtm : Dtm} {gid : String} {options : TransactionOptions} {shows : Nat → Prop}
  {keeps : Transaction → Prop} {p : Outcome → Prop} {w : World} {s s' : Transaction} {i now : Nat}
  {delay : WorkflowRecoveryDelay}

theorem eq_of_toString {m n : Nat} (h : toString m = toString n) : m = n := by
  have hdigits : Nat.toDigits 10 m = Nat.toDigits 10 n := by
    rw [← Nat.toList_repr, ← Nat.toList_repr]
    exact congrArg String.toList h
  rw [← @Nat.ofDigitChars_ten_toDigits m, hdigits, Nat.ofDigitChars_ten_toDigits]

/-- What a deferral that is not refused leaves. -/
structure DeferredBy (delay : WorkflowRecoveryDelay) (s' : Transaction) : Prop where
  prepared : s'.status = .prepared
  lastAttempt : s'.metadata["dtm.callback.last_attempt_millis"]? =
    some (toString delay.attemptedAtMillis)
  nextRetry : ∃ retryAfter, 1 ≤ retryAfter ∧ retryAfter ≤ delay.maxRetryIntervalMillis ∧
    transactionNextRecoveryMillis s' = some (satAdd64 delay.attemptedAtMillis retryAfter)

/-- **A valid deferral is accepted.** -/
theorem WaitingRecord.defer (hs : WaitingRecord gid keeps s) (hvalid : delay.validate = .ok ()) :
    ∃ s', deferWorkflowRecovery now s delay = .ok s' ∧ DeferredBy delay s' := by
  have hinterval : 0 < delay.retryIntervalMillis ∧
      delay.retryIntervalMillis ≤ delay.maxRetryIntervalMillis := by
    unfold WorkflowRecoveryDelay.validate at hvalid
    obtain ⟨_, hinterval, -⟩ := bind_eq_ok hvalid
    simp only [ensure_eq_ok, Bool.and_eq_true, decide_eq_true_eq] at hinterval
    exact hinterval.1
  unfold deferWorkflowRecovery
  rw [hs.ensure, hs.ensureStatus, hvalid]
  refine ⟨_, rfl, hs.prepared, ?_, ?_⟩
  · dsimp only [bumpTransactionRevision]
    rw [getElem?_insert_other (by decide), getElem?_insert_other (by decide),
      Std.ExtTreeMap.getElem?_insert_self]
  · generalize (if delay.backoff = true then _ else _) = shift
    refine ⟨min (satMul64 delay.retryIntervalMillis (2 ^ shift)) delay.maxRetryIntervalMillis, ?_,
      min_le_right _ _, ?_⟩
    · have hfactor : 1 ≤ delay.retryIntervalMillis * 2 ^ shift :=
        Nat.mul_pos hinterval.1 (Nat.two_pow_pos shift)
      refine le_min (le_min hfactor (by decide)) (by omega)
    · unfold transactionNextRecoveryMillis
      rw [if_neg, if_pos]
      · dsimp only [bumpTransactionRevision]
        rw [getElem?_insert_other (by decide), Std.ExtTreeMap.getElem?_insert_self,
          Option.bind_some]
        exact parseUnsigned_toString (min_le_right _ _)
      · rw [← hs.callback]
        refine isCallbackWorkflow_congr rfl rfl ?_
        dsimp only [bumpTransactionRevision]
        rw [getElem?_insert_other (by decide), getElem?_insert_other (by decide),
          getElem?_insert_other (by decide), getElem?_insert_other (by decide)]
      · exact Bool.eq_false_iff.mp hs.live

/-- An invalid one is refused. -/
theorem WaitingRecord.defer_refused {e : Err} (hs : WaitingRecord gid keeps s)
    (hinvalid : delay.validate = .error e) : deferWorkflowRecovery now s delay = .error e := by
  unfold deferWorkflowRecovery
  rw [hs.ensure, hs.ensureStatus, hinvalid]
  rfl

/-- **A valid deferral among other steps.** -/
theorem undisturbed_deferCallbackWorkflow {E : Err → World → Prop} {attempted : Nat}
    {backoff : Bool} {outcome : String} (hw : Waits gid keeps shows w)
    (hs : WaitingRecord gid keeps s)
    (hvalid : (dtm.callbackDelay s.options attempted backoff outcome).validate = .ok ()) :
    (undisturbed gid keeps shows p).Runs (fun _ => True) i
      (dtm.deferCallbackWorkflow s attempted backoff outcome)
      (fun tx w => w.txs[gid]? = some tx ∧
        DeferredBy (dtm.callbackDelay s.options attempted backoff outcome) tx) E w := by
  refine @undisturbed_call _ _ _ _ _ _ _ _ (.deferWorkflowRecovery s.gid
    (dtm.callbackDelay s.options attempted backoff outcome)) _ _ hw fun w₁ c hw₁ _ => ?_
  obtain ⟨stored, hstored, hrecord⟩ := hw₁.stored
  obtain ⟨s', hs', hdeferred⟩ := @WaitingRecord.defer _ _ _ w₁.clock _ hrecord hvalid
  have hexec : InMemory.exec i (.deferWorkflowRecovery s.gid
      (dtm.callbackDelay s.options attempted backoff outcome)) c w₁ =
      (.ok s', { w₁ with txs := w₁.txs.insert gid s' }) := by
    show InMemory.modify w₁ s.gid _ = _
    rw [hs.gid]
    exact modify_ok hstored hs'
  rw [hexec]
  exact ⟨Std.ExtTreeMap.getElem?_insert_self, hdeferred⟩

/-- **An invalid one is an error of the recovery.** -/
theorem undisturbed_deferCallbackWorkflow_refused {Q : Transaction → World → Prop}
    {attempted : Nat} {backoff : Bool} {outcome : String} {e : Err} (hw : Waits gid keeps shows w)
    (hs : WaitingRecord gid keeps s)
    (hinvalid : (dtm.callbackDelay s.options attempted backoff outcome).validate = .error e) :
    (undisturbed gid keeps shows p).Runs (fun _ => True) i
      (dtm.deferCallbackWorkflow s attempted backoff outcome) Q (fun _ _ => True) w := by
  refine @undisturbed_call _ _ _ _ _ _ _ _ (.deferWorkflowRecovery s.gid
    (dtm.callbackDelay s.options attempted backoff outcome)) _ _ hw fun w₁ c hw₁ _ => ?_
  obtain ⟨stored, hstored, hrecord⟩ := hw₁.stored
  have hexec : InMemory.exec i (.deferWorkflowRecovery s.gid
      (dtm.callbackDelay s.options attempted backoff outcome)) c w₁ = (.error e, w₁) := by
    show InMemory.modify w₁ s.gid _ = _
    rw [hs.gid]
    exact modify_error hstored (@WaitingRecord.defer_refused _ _ _ w₁.clock _ _ hrecord hinvalid)
  rw [hexec]
  -- the record is still not complete
  show (undisturbed gid keeps shows p).Runs (fun _ => True) i (Dtm.terminalAfterConflict s.gid e) Q
    (fun _ _ => True) w₁
  rw [hs.gid]
  refine undisturbed_load hw₁ fun w₂ latest hw₂ hlatest => ?_
  rw [if_neg (by rw [hlatest.live]; decide)]
  exact trivial

/-- A recovery whose callback does not report a failure comes to a deferral. -/
theorem undisturbed_defers {Q : Transaction → World → Prop} {E : Err → World → Prop}
    (hw : Waits gid keeps shows w)
    (h : ∀ w₁ s attempted backoff, ∀ outcome ∈ deferralOutcomes, Waits gid keeps shows w₁ →
      WaitingRecord gid keeps s → shows attempted →
      (undisturbed gid keeps shows Outcome.NotFailed).Runs (fun _ => True) i
        (dtm.deferCallbackWorkflow s attempted backoff outcome) Q E w₁) :
    (undisturbed gid keeps shows Outcome.NotFailed).Runs (fun _ => True) i
      (dtm.recoverCallbackWorkflow gid) Q E w := by
  refine undisturbed_recover hw (fun w₁ s attempted _ hw₁ hs hshows _ => ?_)
    fun w₁ latest attempted c hw₁ hs hshows hc => ?_
  · exact h w₁ s attempted true _ (by decide) hw₁ hs hshows
  · unfold Dtm.answerWith
    split
    · rename_i reason hreason
      exact absurd hreason (hc reason)
    · exact h w₁ latest attempted false _ (by decide) hw₁ hs hshows
    · exact h w₁ latest attempted true _ (by decide) hw₁ hs hshows
    · exact h w₁ latest attempted true _ (by decide) hw₁ hs hshows

/-- **Where no delay is invalid the recovery defers.** -/
theorem undisturbed_deferral (hw : Waits gid (KeepsOptions options) shows w)
    (hvalid : ∀ attempted backoff outcome, outcome ∈ deferralOutcomes →
      (dtm.callbackDelay options attempted backoff outcome).validate = .ok ()) :
    (undisturbed gid (KeepsOptions options) shows Outcome.NotFailed).Runs (fun _ => True) i
      (dtm.recoverCallbackWorkflow gid)
      (fun tx w => w.txs[gid]? = some tx ∧ ∃ attempted backoff outcome, shows attempted ∧
        DeferredBy (dtm.callbackDelay options attempted backoff outcome) tx)
      (fun _ _ => False) w := by
  refine undisturbed_defers hw fun w₁ s attempted backoff outcome houtcome hw₁ hs hshows => ?_
  have hoptions : s.options = options := hs.keeps
  subst hoptions
  refine (undisturbed_deferCallbackWorkflow hw₁ hs (hvalid attempted backoff outcome houtcome)).mono
    (fun tx w h => ⟨h.1, attempted, backoff, outcome, hshows, h.2⟩) fun _ _ h => h

/-- **Where every delay is invalid the recovery stops with an error.** -/
theorem undisturbed_refusal {Q : Transaction → World → Prop}
    (hw : Waits gid (KeepsOptions options) shows w)
    (hinvalid : ∀ attempted backoff outcome, ∃ e,
      (dtm.callbackDelay options attempted backoff outcome).validate = .error e) :
    (undisturbed gid (KeepsOptions options) shows Outcome.NotFailed).Runs (fun _ => True) i
      (dtm.recoverCallbackWorkflow gid) Q (fun _ _ => True) w := by
  refine undisturbed_defers hw fun w₁ s attempted backoff outcome _ hw₁ hs _ => ?_
  have hoptions : s.options = options := hs.keeps
  subst hoptions
  obtain ⟨e, he⟩ := hinvalid attempted backoff outcome
  exact undisturbed_deferCallbackWorkflow_refused hw₁ hs he

/-! ### The configurations -/

theorem DtmConfig.backoff_of_validate {url : UrlLib} {libs : ServiceLibs url} {config : DtmConfig}
    {production : Bool} (h : config.validate libs production = .ok ()) :
    0 < config.retryBackoffMs ∧ config.retryBackoffMs ≤ config.maxRetryBackoffMs := by
  unfold DtmConfig.validate at h
  obtain ⟨_, -, h⟩ := bind_eq_ok h
  obtain ⟨_, hpositive, h⟩ := bind_eq_ok h
  obtain ⟨_, hle, -⟩ := bind_eq_ok h
  rw [ensure_eq_ok, decide_eq_true_eq] at hpositive hle
  exact ⟨hpositive, hle⟩

theorem TransactionOptions.interval_of_validate {libs : Libs} (h : options.validate libs = .ok ())
    {interval : Nat} (hinterval : options.retryIntervalMillis = some interval) :
    1 ≤ interval ∧ interval ≤ 86400000 := by
  unfold TransactionOptions.validate at h
  rw [hinterval] at h
  have hbounds {u : Unit} (h : ensure (decide (1 ≤ interval) && decide (interval ≤ 86400000))
      "retry interval must be between 1 and 86400000 milliseconds" = .ok u) :
      1 ≤ interval ∧ interval ≤ 86400000 := by
    simpa only [ensure_eq_ok, Bool.and_eq_true, decide_eq_true_eq] using h
  dsimp only at h
  split at h
  · obtain ⟨_, -, h⟩ := bind_eq_ok h
    obtain ⟨_, hinterval, -⟩ := bind_eq_ok h
    exact hbounds hinterval
  · obtain ⟨_, hinterval, -⟩ := bind_eq_ok h
    exact hbounds hinterval

/-- **Which configurations give valid delays.** -/
theorem delaysWell_iff {libs : Libs} {config : DtmConfig}
    (hbackoff : 0 < config.retryBackoffMs ∧ config.retryBackoffMs ≤ config.maxRetryBackoffMs)
    (hoptions : options.validate libs = .ok ()) :
    (config.dtm libs).DelaysWell options ↔ config.maxRetryBackoffMs ≤ 86400000 := by
  constructor
  · exact fun h => h.bound
  · intro hbound
    refine ⟨?_, hbound⟩
    show options.retryIntervalMillis.getD config.retryBackoffMs ≤ 86400000
    cases hinterval : options.retryIntervalMillis with
    | none => exact hbackoff.2.trans hbound
    | some interval => exact (TransactionOptions.interval_of_validate hoptions hinterval).2

/-- The delays of a coordinator end within its bound. -/
theorem deferredWithin_of_deferredBy {attempted : Nat} {backoff : Bool} {outcome : String}
    (hpositive : 0 < dtm.options.retryBackoffMillis)
    (hle : dtm.options.retryBackoffMillis ≤ dtm.options.maxRetryBackoffMillis)
    (hshows : shows attempted) (hbefore : attempted < u64Max)
    (h : DeferredBy (dtm.callbackDelay options attempted backoff outcome) s) :
    DeferredWithin shows (dtm.delayBound options) s := by
  obtain ⟨retryAfter, hretry, hmax, hnext⟩ := h.nextRetry
  refine ⟨attempted, _, hshows, h.lastAttempt, hnext, ?_, ?_⟩
  · exact lt_min (show attempted < attempted + retryAfter by omega) hbefore
  · have hbound : retryAfter ≤ dtm.delayBound options := by
      refine hmax.trans ?_
      show max dtm.options.maxRetryBackoffMillis
        (max (options.retryIntervalMillis.getD dtm.options.retryBackoffMillis) 1) ≤ _
      unfold Dtm.delayBound
      cases options.retryIntervalMillis with
      | none =>
        show max _ (max dtm.options.retryBackoffMillis 1) ≤ max _ 0
        omega
      | some interval =>
        show max _ (max interval 1) ≤ max _ interval
        omega
    refine (min_le_left _ _).trans ?_
    show attempted + retryAfter ≤ _
    omega

/-- A recovery that reads the clock at its last value defers to that value. -/
theorem deferralSound_clock (h : DeferralSound dtm gid options shows w)
    (hw : Waits gid (KeepsOptions options) shows w) {t : Nat} (ht : shows t) : t < u64Max := by
  -- a run in which the clock shows `t` all the time
  obtain ⟨s, hs, hrecord⟩ := hw.stored
  have hat : Waits gid (KeepsOptions options) (· = t) { w with clock := t } :=
    ⟨⟨s, hs, hrecord⟩, rfl⟩
  have hrun := @undisturbed_deferral dtm gid options (· = t) _ 0 hat h.valid
  have : Nonempty {c : Outcome // c.NotFailed} := ⟨⟨.ofOk true, fun _ h => nomatch h⟩⟩
  obtain ⟨r, w', hgoes, hr⟩ := Machine.Ends.exists_goes (fun _ _ => trivial) hrun
  cases r with
  | error e => exact hr.elim
  | ok tx =>
    obtain ⟨-, attempted, backoff, outcome, hattempted, hdeferred⟩ := hr
    have hdrift : (undisturbed gid (KeepsOptions options) shows Outcome.NotFailed).drift w
        { w with clock := t } := ⟨⟨s, hs, hrecord⟩, ht⟩
    have hgoes' : (undisturbed gid (KeepsOptions options) shows Outcome.NotFailed).Goes 0
        (dtm.recoverCallbackWorkflow gid).run w (some (.ok tx)) w' := by
      refine .drift hdrift (Machine.Goes.widen (fun _ w₂ hw₂ => ?_) hgoes)
      exact ⟨hw₂.stored, show shows w₂.clock from hw₂.clock ▸ ht⟩
    have hwithin := Machine.Ends.sound (fun r _ _ h _ => by cases r <;> exact h)
      (Machine.Runs.mono (R := fun tx _ => DeferredWithin shows (dtm.delayBound options) tx)
        (h.recovers 0) (fun _ _ h => h.2) fun _ _ h => h) hgoes'
    obtain ⟨attempted', next, -, hlast, hnext, hlate, -⟩ := hwithin
    obtain ⟨retryAfter, -, -, hnext'⟩ := hdeferred.nextRetry
    have hsame : attempted' = t := by
      rw [← hattempted]
      exact eq_of_toString (Option.some.inj (hlast.symm.trans hdeferred.lastAttempt))
    have hsaturated : next ≤ u64Max := by
      rw [Option.some.inj (hnext.symm.trans hnext')]
      exact min_le_right _ _
    omega

/-- **Which configurations defer every callback Workflow**: those whose longest back-off is a day
at most, as long as the clock does not show its last value. -/
theorem deferral_sound_iff (libs : Libs) (serviceLibs : ServiceLibs libs.url) (config : DtmConfig)
    (production : Bool) (hconfig : config.validate serviceLibs production = .ok ())
    (options : TransactionOptions) (hoptions : options.validate libs = .ok ()) (gid : String)
    (shows : Nat → Prop) (w : World) (hw : Waits gid (KeepsOptions options) shows w) :
    DeferralSound (config.dtm libs) gid options shows w ↔
      config.maxRetryBackoffMs ≤ 86400000 ∧ ∀ t, shows t → t < u64Max := by
  have hbackoff := DtmConfig.backoff_of_validate hconfig
  constructor
  · intro h
    refine ⟨?_, fun t ht => deferralSound_clock h hw ht⟩
    have hvalid := h.valid 0 false "ongoing" (by decide)
    unfold WorkflowRecoveryDelay.validate at hvalid
    obtain ⟨_, hinterval, -⟩ := bind_eq_ok hvalid
    simp only [ensure_eq_ok, Bool.and_eq_true, decide_eq_true_eq] at hinterval
    exact (le_max_left _ _).trans hinterval.2
  · rintro ⟨hbound, hclock⟩
    have hwell := (delaysWell_iff hbackoff hoptions).mpr hbound
    have hvalid : ∀ attempted backoff outcome, outcome ∈ deferralOutcomes →
        ((config.dtm libs).callbackDelay options attempted backoff outcome).validate = .ok () :=
      fun _ _ _ houtcome => hwell.valid houtcome
    refine ⟨hvalid, fun i => (undisturbed_deferral hw hvalid).mono ?_ fun _ _ h => h⟩
    rintro tx w' ⟨hstored, attempted, backoff, outcome, hshows, hdeferred⟩
    exact ⟨hstored, deferredWithin_of_deferredBy hbackoff.1 hbackoff.2 hshows
      (hclock attempted hshows) hdeferred⟩

end Deferral

/-! ### The default configuration, and one with a longer back-off -/

/-- The default configuration with an origin and this longest back-off. -/
def configWith (maxRetryBackoffMs : Nat) : DtmConfig :=
  { DtmConfig.default with
    maxRetryBackoffMs, allowedBranchOrigins := ["http://a"] }

theorem waits_awaitedWorkflow :
    Waits "g" (KeepsOptions .default) (· < u64Max) (World.initial [awaitedWorkflow]) :=
  ⟨⟨awaitedWorkflow, rfl, rfl, rfl, by decide, rfl⟩, by decide⟩

/-- With the default back-off no deferral is refused. -/
theorem deferral_sound_default :
    DeferralSound ((configWith 30000).dtm .plain) "g" .default (· < u64Max)
      (World.initial [awaitedWorkflow]) :=
  (deferral_sound_iff .plain .plain (configWith 30000) false (by decide +kernel) .default
    (by decide +kernel) "g" (· < u64Max) _ waits_awaitedWorkflow).mpr ⟨by decide, fun _ ht => ht⟩

/-- With a longest back-off of a day and a millisecond the configuration is accepted and every
recovery stops with an error. -/
theorem deferral_refused :
    (configWith 86400001).validate ServiceLibs.plain false = .ok () ∧
    TransactionOptions.default.validate .plain = .ok () ∧
    Waits "g" (KeepsOptions .default) (· < u64Max) (World.initial [awaitedWorkflow]) ∧
    (∀ i, (undisturbed "g" (KeepsOptions .default) (· < u64Max) Outcome.NotFailed).Runs
      (fun _ => True) i (((configWith 86400001).dtm .plain).recoverCallbackWorkflow "g")
      (fun _ _ => False) (fun _ _ => True) (World.initial [awaitedWorkflow])) ∧
    ¬ DeferralSound ((configWith 86400001).dtm .plain) "g" .default (· < u64Max)
      (World.initial [awaitedWorkflow]) := by
  refine ⟨by decide +kernel, by decide +kernel, waits_awaitedWorkflow, fun i => ?_, fun h => ?_⟩
  · exact undisturbed_refusal waits_awaitedWorkflow fun _ _ _ => ⟨_, rfl⟩
  · exact absurd (h.valid 0 false "ongoing" (by decide)) (by decide)

end RozeDtm

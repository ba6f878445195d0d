import WalletWall.Analysis.DailySpendIsolation
import WalletWall.Analysis.DailySpendTimelock

/-!
# Admitters are counted exactly

`admitterCount` is kept by `writeAdmitter`, in which both paths end: a delegation that stands
already is left alone, so every write changes the set of admitters by exactly one address.

A limit is armed in two ways. Strengthening looks at the count; and a weakening to another
limit was stored while the subject was armed, and has waited in an armed subject since, because
only the one pending proposal could have disarmed it. The last admitter of an armed subject
stays.
-/

set_option autoImplicit false

namespace WalletWall.DailySpendLimitPolicy

open Library

instance : Finite Address :=
  Finite.of_injective (fun a : Address => (⟨a.val, a.isLt⟩ : Fin (2 ^ 160))) fun _ _ h =>
    Address.ext (congrArg Fin.val h)

/-- The admitters of a subject. -/
def Record.admitters (R : Record) : Set Address := {a | R.admitter a = true}

/-- The count is the number of admitters, and an armed subject has one. -/
structure AdmitterInv (R : Record) : Prop where
  exact : R.state.admitterCount = R.admitters.ncard
  armed : R.state.limit ≠ 0 → 1 ≤ R.state.admitterCount

/-- The invariant of every subject. -/
def Accounts (σ : Storage) : Prop := ∀ S, AdmitterInv (σ.record S)

variable {bridge : Address} {msg : Msg} {S : PolicySubject} {s' : SpendState} {σ σ' : Storage}

/-- In an empty storage the counts are right. -/
theorem Accounts.empty : Accounts .empty := by
  intro S
  refine ⟨?_, fun h => absurd rfl h⟩
  show 0 = Set.ncard {a : Address | false = true}
  simp

/-! ## Writes of a subject's state -/

/-- A write that keeps the count, to a limit that is armed only if there is an admitter. -/
theorem Accounts.setState (h : Accounts σ) (hcount : s'.admitterCount = (σ.state S).admitterCount)
    (hlimit : s'.limit ≠ 0 → 1 ≤ (σ.state S).admitterCount) : Accounts (σ.setState S s') := by
  intro T
  by_cases hT : T = S
  · subst hT
    rw [record_setState]
    refine ⟨hcount.trans (h T).exact, fun harmed => ?_⟩
    show 1 ≤ s'.admitterCount
    rw [hcount]
    exact hlimit harmed
  · rw [Storage.record, Storage.setState_state_of_ne σ S T s' hT, Storage.setState_admitter]
    exact h T

/-- A write that keeps the count and the limit. -/
theorem Accounts.keep (h : Accounts σ) (hcount : s'.admitterCount = (σ.state S).admitterCount)
    (hlimit : s'.limit = (σ.state S).limit) : Accounts (σ.setState S s') :=
  h.setState hcount fun harmed => (h S).armed (hlimit ▸ harmed)

/-- Applying what waits: the subject was armed all the while, so it has an admitter. -/
theorem Accounts.apply (h : Accounts σ) (hp : PendingInv (σ.state S)) {p : PendingWeakening}
    (hsome : (σ.state S).pending = some p) : Accounts (σ.setState S (p.applyTo (σ.state S))) := by
  unfold PendingWeakening.applyTo
  split
  · exact h.keep rfl rfl
  · rename_i hkind
    refine h.setState rfl fun _ => (h S).armed fun hzero => ?_
    have hweaker := hp.limit p hsome (Bool.eq_false_of_not_eq_true hkind)
    rw [show (σ.state S).limit = 0 from hzero] at hweaker
    exact not_top_lt hweaker

/-! ## Writes of a delegation -/

/-- Delegating to somebody new is one more, taking a delegation away is one less. -/
theorem admitters_update (admitter : Address → Bool) (caller : Address) (allowed : Bool)
    (hne : admitter caller ≠ allowed) :
    recount {a | admitter a = true}.ncard allowed =
      .ok {a | Function.update admitter caller allowed a = true}.ncard := by
  cases allowed with
  | true =>
      have hnew : caller ∉ {a | admitter a = true} := by simpa using hne
      have hset : {a | Function.update admitter caller true a = true} =
          insert caller {a | admitter a = true} := by
        ext a
        by_cases ha : a = caller <;> simp [ha, Function.update_of_ne]
      have hcard : {a | Function.update admitter caller true a = true}.ncard =
          {a | admitter a = true}.ncard + 1 := by
        rw [hset, Set.ncard_insert_of_notMem hnew (Set.toFinite _)]
      have hbound : {a | Function.update admitter caller true a = true}.ncard ≤ 2 ^ 160 := by
        refine (Set.ncard_le_card _).trans ?_
        exact (Nat.card_le_card_of_injective (fun a : Address => (⟨a.val, a.isLt⟩ : Fin (2 ^ 160)))
          fun _ _ h => Address.ext (congrArg Fin.val h)).trans (by simp)
      have hfits : {a | admitter a = true}.ncard + 1 < 2 ^ 256 := by
        rw [← hcard]
        exact hbound.trans_lt (by norm_num)
      rw [recount, if_pos rfl, hcard]
      exact addU_eq_ok.mpr ⟨hfits, rfl⟩
  | false =>
      have hold : caller ∈ {a | admitter a = true} := by simpa using hne
      have hset : {a | Function.update admitter caller false a = true} =
          {a | admitter a = true} \ {caller} := by
        ext a
        by_cases ha : a = caller <;> simp [ha, Function.update_of_ne]
      have hpos : 0 < {a | admitter a = true}.ncard := (Set.ncard_pos (Set.toFinite _)).mpr ⟨_, hold⟩
      rw [recount, if_neg (by simp), hset, Set.ncard_sdiff_singleton_of_mem hold]
      exact subU_eq_ok.mpr ⟨hpos, rfl⟩

/-- A change of admitters keeps the count exact and leaves an armed subject with an admitter. -/
theorem Accounts.writeAdmitter (h : Accounts σ) {caller : Address} {allowed : Bool}
    (hw : writeAdmitter S caller allowed σ = .ok σ') : Accounts σ' := by
  unfold DailySpendLimitPolicy.writeAdmitter at hw
  by_cases hsame : σ.admitter S caller = allowed
  · rw [if_pos hsame] at hw
    exact pure_eq_ok.mp hw ▸ h
  · rw [if_neg hsame] at hw
    simp only [revertIf_eq_ok, exists_const, bind_eq_ok, pure_eq_ok] at hw
    obtain ⟨hlast, n, hn, rfl⟩ := hw
    have hexact : (σ.state S).admitterCount = {a | σ.admitter S a = true}.ncard := (h S).exact
    intro T
    by_cases hT : T = S
    · subst hT
      have hself : ((σ.setAdmitter T caller allowed).setState T
          { σ.state T with admitterCount := n }).record T =
          ⟨{ σ.state T with admitterCount := n }, Function.update (σ.admitter T) caller allowed⟩ := by
        rw [record_setState, setAdmitter_admitter_self]
      rw [hself]
      constructor
      · show n = {a | Function.update (σ.admitter T) caller allowed a = true}.ncard
        have hcount := admitters_update (σ.admitter T) caller allowed hsame
        rw [← hexact, hn] at hcount
        exact Except.ok.inj hcount
      · intro harmed
        show 1 ≤ n
        have hone := (h T).armed harmed
        have hone' : 1 ≤ (σ.state T).admitterCount := hone
        cases allowed with
        | true =>
            obtain ⟨-, hn⟩ := addU_eq_ok.mp hn
            omega
        | false =>
            obtain ⟨-, hn⟩ := subU_eq_ok.mp hn
            have htwo : (σ.state T).admitterCount ≠ 1 := fun hone => hlast ⟨rfl, hone, harmed⟩
            omega
    · have hother : ((σ.setAdmitter S caller allowed).setState S
          { σ.state S with admitterCount := n }).record T = σ.record T := by
        rw [Storage.record, Storage.setState_state_of_ne _ S T _ hT]
        exact congrArg (Record.mk (σ.state T)) (Function.update_of_ne hT _ _)
      rw [hother]
      exact h T

/-! ## Every call -/

/-- Applying through the bridge keeps the counts right. -/
theorem bridgeApply_accounts {unenrollment : Bool} {epoch : ℕ} (h : Accounts σ)
    (hp : ∀ S, PendingInv (σ.state S)) :
    Returns (bridgeApply unenrollment bridge msg S epoch σ) Accounts := by
  refine .bind fun _ _ => .bind fun _ _ => .bind fun _ _ => .bind fun s' hs' => .pure ?_
  obtain ⟨p, hsome, -, -, rfl⟩ := applyPending_eq_ok.mp hs'
  exact h.apply (hp S) hsome

/-- **One call keeps the accounts**, whichever path it takes. -/
theorem dispatch_accounts {op : Op} {r : Ret} (h : Accounts σ) (hp : ∀ S, PendingInv (σ.state S))
    (hd : dispatch bridge msg op σ = .ok (r, σ')) : Accounts σ' := by
  have hkeeps : Returns (dispatch bridge msg op σ) fun y => Accounts y.2 := by
    cases op with
    | setDailyLimit consumer asset limit =>
        refine .map (.bind fun _ _ => .bind fun _ _ => .bind fun _ _ => ?_)
        split
        · refine .bind fun s' hs' => .pure ?_
          obtain ⟨-, rfl⟩ := proposeWeakening_eq_ok.mp hs'
          exact h.keep rfl rfl
        · refine .bind fun _ hguard => .pure (h.setState rfl fun harmed => ?_)
          have hcount := revertIf_eq_ok.mp hguard
          exact Nat.one_le_iff_ne_zero.mpr fun hzero => hcount ⟨harmed, hzero⟩
    | applyWeakening consumer asset =>
        refine .map (.bind fun _ _ => .bind fun s' hs' => .pure ?_)
        obtain ⟨p, hsome, -, -, rfl⟩ := applyPending_eq_ok.mp hs'
        exact h.apply (hp _) hsome
    | cancelWeakening consumer asset =>
        refine .map (.bind fun _ _ => .bind fun s' hs' => .pure ?_)
        obtain ⟨-, rfl⟩ := cancelPending_eq_ok.mp hs'
        exact h.keep rfl rfl
    | setAdmitter consumer asset caller allowed =>
        refine .map (.bind fun _ _ => .bind fun _ _ => .bind fun _ _ => .bind fun _ _ => ?_)
        intro σ₁ hw
        exact h.writeAdmitter hw
    | bridgeEnrollController S controller =>
        exact .map (.bind fun _ _ => .bind fun _ _ => .bind fun _ _ => .pure (h.keep rfl rfl))
    | bridgeStrengthenLimit S newLimit =>
        refine .map (.bind fun _ _ => .bind fun _ _ => .bind fun _ _ => .bind fun _ _ =>
          .bind fun _ hguard => .pure (h.setState rfl fun harmed => ?_))
        have hcount := revertIf_eq_ok.mp hguard
        exact Nat.one_le_iff_ne_zero.mpr fun hzero => hcount ⟨harmed, hzero⟩
    | bridgeProposeWeakening S newLimit epoch =>
        refine .map (.bind fun _ _ => .bind fun _ _ => .bind fun _ _ => .bind fun s' hs' => .pure ?_)
        obtain ⟨-, rfl⟩ := proposeWeakening_eq_ok.mp hs'
        exact h.keep rfl rfl
    | bridgeApplyWeakening S epoch => exact .map (bridgeApply_accounts h hp)
    | bridgeCancelWeakening S =>
        refine .map (.bind fun _ _ => .bind fun _ _ => .bind fun s' hs' => .pure ?_)
        obtain ⟨-, rfl⟩ := cancelPending_eq_ok.mp hs'
        exact h.keep rfl rfl
    | bridgeProposeUnenrollController S epoch =>
        refine .map (.bind fun _ _ => .bind fun _ _ => .bind fun s' hs' => .pure ?_)
        obtain ⟨-, rfl⟩ := proposeWeakening_eq_ok.mp hs'
        exact h.keep rfl rfl
    | bridgeApplyUnenrollController S epoch => exact .map (bridgeApply_accounts h hp)
    | bridgeSetAdmitter S caller allowed =>
        refine .map (.bind fun _ _ => .bind fun _ _ => .bind fun _ _ => .bind fun _ _ => ?_)
        intro σ₁ hw
        exact h.writeAdmitter hw
    | check S recipient amount balance =>
        refine .map ?_
        intro y hy
        obtain ⟨allowed, reason, σ₁⟩ := y
        obtain ⟨-, -, -, rfl⟩ | ⟨-, -, s', hadmit, rfl⟩ := check_ok hy
        · exact h
        · cases allowed with
          | false => exact h
          | true =>
              show Accounts (σ.setState S s')
              rw [checkAdmission_ledger hadmit]
              exact h.keep rfl rfl
  exact hkeeps _ hd

/-! ## Every run -/

variable {ok : Moment World Call Empty Empty Ret → List Empty → Prop}
  {c : Machine.Config World Call Empty Empty Ret}

/-- Every reachable world keeps its accounts. -/
theorem Reachable.accounts (hc : (machine bridge).Reachable Fresh ok c) :
    Accounts c.now.world.storage := by
  have hpending : (machine bridge).Invariant Fresh ok
      (fun m _ => ∀ S, PendingInv (m.world.storage.state S)) := by
    refine ⟨fun w hw _ S => ?_, fun m s o fs hp _ hr _ S => ?_, fun m ev hp _ _ => hp⟩
    · rw [show w.storage = .empty from hw]
      exact .empty
    · obtain h | ⟨c, -, -, h⟩ := run_subject (e := ⟨s, m.world, o⟩) hr S
      · exact h ▸ hp S
      · exact (hp S).step h
  have hstart : ∀ w, Fresh w → Accounts w.storage := by
    intro w hw
    rw [show w.storage = .empty from hw]
    exact .empty
  have hI := hpending.extend (Q := fun m _ => Accounts m.world.storage)
    (fun w hw _ => hstart w hw)
    (fun m s o fs hp hacc _ hr _ _ => by
      obtain ⟨call, r, σ', -, hd, rfl⟩ := run_eq_ok.mp hr
      exact dispatch_accounts hacc hp hd)
    (fun m ev _ (hacc : Accounts m.world.storage) _ => hacc)
  exact (hI.holds hc).2

/-- **Admitter accounting.** In every reachable world, for every subject, the count is the number
of addresses with a delegation, and an armed subject has one. -/
theorem admitters_are_counted (hc : (machine bridge).Reachable Fresh ok c) (S : PolicySubject) :
    (c.now.world.storage.state S).admitterCount =
        {a | c.now.world.storage.admitter S a = true}.ncard ∧
      ((c.now.world.storage.state S).limit ≠ 0 →
        1 ≤ (c.now.world.storage.state S).admitterCount) :=
  ⟨(Reachable.accounts hc S).exact, (Reachable.accounts hc S).armed⟩

/-- An owner delegates to itself twice, arms a limit, delegates to a contract and takes its own
delegation back. -/
def delegatingRun : List (Machine.Move Call Empty ℕ) :=
  let call op := .enter ⟨.of 7, fun _ => true, op⟩
  [call (.setAdmitter (.of 1) 0 (.of 7) true), call (.setAdmitter (.of 1) 0 (.of 7) true),
    call (.setDailyLimit (.of 1) 0 100), call (.setAdmitter (.of 1) 0 (.of 9) true),
    call (.setAdmitter (.of 1) 0 (.of 7) false)]

/-- A run in which admitters are added and taken away, and counted. -/
theorem admitters_are_counted_delegating : ∃ c,
    (machine 0).follow (fun _ _ => true) delegatingRun ⟨⟨⟨0, .empty⟩, []⟩, []⟩ = some c ∧
    ((c.now.world.storage.state ⟨.of 1, .of 7, 0⟩).admitterCount =
        {a | c.now.world.storage.admitter ⟨.of 1, .of 7, 0⟩ a = true}.ncard ∧
      ((c.now.world.storage.state ⟨.of 1, .of 7, 0⟩).limit ≠ 0 →
        1 ≤ (c.now.world.storage.state ⟨.of 1, .of 7, 0⟩).admitterCount)) := by
  refine ⟨_, rfl, ?_⟩
  have hstart : (machine 0).Reachable Fresh Machine.anywhere ⟨⟨⟨0, .empty⟩, []⟩, []⟩ :=
    .start (show Fresh ⟨0, .empty⟩ from rfl) trivial
  exact admitters_are_counted (hstart.follow (fun _ _ => true) (fun _ _ _ => trivial) delegatingRun rfl) _

end WalletWall.DailySpendLimitPolicy

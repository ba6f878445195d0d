import WalletWall.Analysis.VaultRecovery
import WalletWall.Analysis.VaultAuthority

/-!
# The treasury quorum

The approvals of an operation are a poll among the guardians of its owner, open while the
operation is the owner's pending withdrawal. `TreasuryStep` says what an activation can do to
the approvals, to the slots of pending withdrawals and to the guardians, all owners together:
whatever empties a slot or replaces the guardians clears the approvals first. So each pending
operation has an exact tally among the current guardians and every other operation has none
(`Treasury.Exact`), which needs that two owners never have the same operation pending.
-/

set_option autoImplicit false

namespace WalletWall.WalletWallVault

open Library

variable {d : Deployment} {ctx : Ctx} {v : State} {op : Op} {o : Outcome State Frame Unit}
  {s : Segment Call Frame Answer} {journal : List VaultEntry}

/-- What decides the quorums of all owners. -/
structure Treasury where
  guardians : Address → List Address
  threshold : Address → ℕ
  pending : Address → Option PendingWithdrawal
  count : Bytes32 → ℕ
  approvals : Bytes32 → Address → Bool

def State.treasury (v : State) : Treasury :=
  ⟨v.vaultGuardians, v.treasuryQuorumThreshold, v.pendingWithdrawals, v.treasuryApprovalCount,
    v.treasuryApprovals⟩

namespace Treasury

/-- The approvals of an operation cleared, unless there are none. -/
def clear (y : Treasury) (owner : Address) (operationId : Bytes32) : Treasury :=
  if y.count operationId = 0 then y
  else { y with
    count := Function.update y.count operationId 0
    approvals := Function.update y.approvals operationId
      (clearFlags (y.guardians owner) (y.approvals operationId)) }

/-- The approvals of an owner's pending withdrawal cleared, if there is one. -/
def clearPending (y : Treasury) (owner : Address) : Treasury :=
  match y.pending owner with
  | some p => y.clear owner p.operationId
  | none => y

def setPending (y : Treasury) (owner : Address) (p : Option PendingWithdrawal) : Treasury :=
  { y with pending := Function.update y.pending owner p }

def setGuardians (y : Treasury) (owner : Address) (guardians : List Address) : Treasury :=
  { y with guardians := Function.update y.guardians owner guardians }

/-- One more guardian approves an operation. -/
def approve (y : Treasury) (operationId : Bytes32) (guardian : Address) : Treasury :=
  { y with
    count := Function.update y.count operationId (y.count operationId + 1)
    approvals := Function.update y.approvals operationId
      (Poll.voted guardian (y.approvals operationId)) }

end Treasury

/-! ## One step -/

/-- Whether an activation is the owner's change of its guardians. -/
def setsGuardians (owner : Address) : Segment Call Frame Answer → Bool
  | .enter ⟨sender, _, .setGuardians _⟩ => sender = owner
  | _ => false

/-- What an activation can do to the treasury quorums. -/
inductive TreasuryStep (s : Segment Call Frame Answer) (y : Treasury) : Treasury → Prop
  | kept (hs : ∀ owner, setsGuardians owner s = false) : TreasuryStep s y y
  | guarded {owner around guardians} (hs : s = .enter ⟨owner, around, .setGuardians guardians⟩)
      (hquorum : y.threshold owner ≤ guardians.length) :
      TreasuryStep s y ((y.clearPending owner).setGuardians owner guardians)
  | armed {owner threshold} (hs : ∀ a, setsGuardians a s = false)
      (hreach : threshold ≤ (y.guardians owner).length) :
      TreasuryStep s y { y with threshold := Function.update y.threshold owner threshold }
  | approved {owner guardian around p}
      (hs : s = .enter ⟨guardian, around, .approveTreasuryWithdrawal owner p.operationId⟩)
      (hpending : y.pending owner = some p) (hguardian : guardian ∈ y.guardians owner)
      (hnew : y.approvals p.operationId guardian = false) :
      TreasuryStep s y (y.approve p.operationId guardian)
  | queued {owner p} (hs : ∀ a, setsGuardians a s = false) (hempty : y.pending owner = none) :
      TreasuryStep s y (y.setPending owner (some p))
  | settled {owner p} (hs : ∀ a, setsGuardians a s = false) (hpending : y.pending owner = some p) :
      TreasuryStep s y ((y.clear owner p.operationId).setPending owner none)

/-- Clearing an operation's approvals clears them in the treasury, guardian by guardian. -/
theorem clearTreasury_treasury (owner : Address) (operationId : Bytes32) (v : State) :
    (clearTreasuryApprovalsForOp owner operationId v).treasury =
      v.treasury.clear owner operationId := by
  unfold clearTreasuryApprovalsForOp Treasury.clear
  by_cases h : v.treasuryApprovalCount operationId = 0
  · rw [if_pos h, if_pos (show v.treasury.count operationId = 0 from h)]
  · rw [if_neg h, if_neg (show ¬ v.treasury.count operationId = 0 from h)]
    rfl

/-- Clearing the approvals of what is queued clears them in the treasury. -/
theorem clearPendingApprovals_treasury (owner : Address) (v : State) :
    (clearPendingApprovals owner v).treasury = v.treasury.clearPending owner := by
  unfold clearPendingApprovals Treasury.clearPending
  rw [show v.treasury.pending = v.pendingWithdrawals from rfl]
  cases v.pendingWithdrawals owner with
  | none => rfl
  | some p => exact clearTreasury_treasury owner p.operationId v

/-- A refund clears the operation's approvals and empties the tenant's queue. -/
theorem refund_treasury (v : State) (owner : Address) (p : PendingWithdrawal) :
    (v.refund owner p).treasury = (v.treasury.clear owner p.operationId).setPending owner none := by
  rw [← clearTreasury_treasury]
  rfl

/-- A change of credentials settles the pending withdrawal, if there is one. -/
theorem refundAny_treasury (v₁ : State) (owner : Address) (hs : ∀ a, setsGuardians a s = false)
    (h : v₁.treasury = v.treasury) :
    TreasuryStep s v.treasury (v₁.refundAny owner).treasury := by
  rw [← h]
  unfold State.refundAny
  cases hp : v₁.pendingWithdrawals owner with
  | none => exact .kept hs
  | some p =>
      rw [show (v₁.refund owner p).treasury = _ from refund_treasury v₁ owner p]
      exact .settled hs hp

/-- An admitted queueing is a step of the treasury: a new operation in an empty queue. -/
theorem queueAdmitted_treasury {engine : Address} {r : Withdrawal} {operationId : Bytes32}
    (hs : ∀ a, setsGuardians a s = false) (hempty : v.pendingWithdrawals r.vaultOwner = none)
    (h : queueAdmitted ctx engine r operationId v = .ok o) :
    TreasuryStep s v.treasury o.after.treasury := by
  obtain ⟨-, -, rfl⟩ := queueAdmitted_eq_ok.mp h
  exact .queued hs hempty

/-- **One call, one step of the treasury.** -/
theorem Effect.treasury {c : Call} {w : World} (he : Effect (c.view d w) w.vault c.op o) :
    TreasuryStep (.enter c) w.vault.treasury o.after.treasury := by
  obtain ⟨sender, around, op⟩ := c
  simp only at he
  cases he with
  | @setGuardians guardians hpresent hlen hquorum hset =>
      have hclear := clearPendingApprovals_treasury sender
        ((w.vault.setRequest sender none).clearSupports sender)
      have hstep := TreasuryStep.guarded (s := .enter ⟨sender, around, .setGuardians guardians⟩)
        (y := w.vault.treasury) rfl hquorum
      rw [show w.vault.treasury.clearPending sender = _ from hclear.symm] at hstep
      exact hstep
  | executeRecovery => exact refundAny_treasury _ _ (fun _ => rfl) rfl
  | rotateCredentials => exact refundAny_treasury _ _ (fun _ => rfl) rfl
  | depositTo hop =>
      rcases hop with ⟨rfl, -⟩ | rfl
      · exact .kept fun _ => rfl
      · exact .kept fun _ => rfl
  | queueWithdrawal hu hrun hreq hempty hlarge hnext =>
      rcases hnext with ⟨-, rfl⟩ | ⟨-, h⟩
      · exact .kept fun _ => rfl
      · exact queueAdmitted_treasury (fun _ => rfl) hempty h
  | @finalizeWithdrawal a operationId p hu hrun hpending =>
      obtain ⟨hheld, -, rfl⟩ := hpending
      have hclear := clearTreasury_treasury a p.operationId w.vault
      have hstep := TreasuryStep.settled
        (s := .enter ⟨sender, around, .finalizeWithdrawal a p.operationId⟩)
        (y := w.vault.treasury) (fun _ => rfl) hheld
      rw [← hclear] at hstep
      exact hstep
  | cancelPendingWithdrawal hu hpending =>
      obtain ⟨hheld, -, rfl⟩ := hpending
      rw [Outcome.after_done, refund_treasury]
      exact .settled (fun _ => rfl) hheld
  | withdraw hu hrun hreq hsmall hnext =>
      rcases hnext with ⟨-, rfl⟩ | ⟨-, h⟩
      · exact .kept fun _ => rfl
      · obtain ⟨-, -, -, rfl⟩ := withdrawAdmitted_eq_ok.mp h
        exact .kept fun _ => rfl
  | @setTreasuryQuorumThreshold threshold hpresent hreach =>
      exact .armed (fun _ => rfl) hreach
  | @approveTreasuryWithdrawal owner operationId p hheld hnamed hguardian hnew hfits =>
      subst hnamed
      exact .approved rfl hheld hguardian hnew
  | _ => exact .kept fun _ => rfl

/-- A suspended call that goes on is a step of the treasury. -/
theorem Resumed.treasury {f : Frame} {a : Answer} (h : Resumed ctx v f a o) (hf : f.Ready v) :
    TreasuryStep (.resume f a) v.treasury o.after.treasury := by
  cases h with
  | queueChecking => exact .queued (fun _ => rfl) hf.2.2
  | _ => exact .kept fun _ => rfl

/-- Every activation is a step of the treasury. -/
theorem Ran.treasury {w : World} {ow : Outcome World Frame Unit} {fs : List Frame}
    (h : Ran d w s ow) (hi : VaultInv w.vault (s.taken ++ fs)) :
    TreasuryStep s w.vault.treasury ow.after.vault.treasury := by
  cases h with
  | call h =>
      rw [lift_after]
      exact h.treasury
  | @resumed f a o h =>
      rw [lift_after]
      rcases hi.lock with ⟨hfs, -⟩ | ⟨g, hfs, -, hready⟩
      · simp [Segment.taken] at hfs
      · obtain ⟨rfl, -⟩ : f = g ∧ fs = [] := by simpa [Segment.taken] using hfs
        exact h.treasury hready

/-! ## The tallies -/

/-- No two owners have the same operation pending. -/
def Treasury.Distinct (y : Treasury) : Prop :=
  ∀ a b p q, y.pending a = some p → y.pending b = some q → p.operationId = q.operationId → a = b

/-- Every pending operation has an exact tally among its owner's guardians, and no other
operation has an approval. -/
structure Treasury.Exact (y : Treasury) : Prop where
  reachable : ∀ owner, y.threshold owner ≤ (y.guardians owner).length
  tally : ∀ owner p, y.pending owner = some p →
    Poll.Tally (y.guardians owner) (y.approvals p.operationId) (y.count p.operationId)
  idle : ∀ operationId, (∀ owner p, y.pending owner = some p → p.operationId ≠ operationId) →
    y.count operationId = 0 ∧ y.approvals operationId = fun _ => false

namespace Treasury

variable {y : Treasury} {owner : Address} {p : PendingWithdrawal}

/-- Clearing approvals leaves the guardians. -/
@[simp] theorem clear_guardians (y : Treasury) (owner : Address) (operationId : Bytes32) :
    (y.clear owner operationId).guardians = y.guardians := by
  unfold clear
  split <;> rfl

/-- Clearing approvals leaves the threshold. -/
@[simp] theorem clear_threshold (y : Treasury) (owner : Address) (operationId : Bytes32) :
    (y.clear owner operationId).threshold = y.threshold := by
  unfold clear
  split <;> rfl

/-- Clearing approvals leaves what is queued. -/
@[simp] theorem clear_pending (y : Treasury) (owner : Address) (operationId : Bytes32) :
    (y.clear owner operationId).pending = y.pending := by
  unfold clear
  split <;> rfl

/-- Clearing an operation does nothing to another. -/
theorem clear_of_ne (y : Treasury) (owner : Address) {operationId other : Bytes32}
    (h : other ≠ operationId) :
    (y.clear owner operationId).count other = y.count other ∧
      (y.clear owner operationId).approvals other = y.approvals other := by
  unfold clear
  split
  · exact ⟨rfl, rfl⟩
  · exact ⟨Function.update_of_ne h 0 y.count, Function.update_of_ne h _ y.approvals⟩

/-- Clearing a pending operation leaves no approval of it, also where it returns early. -/
theorem Exact.cleared (h : y.Exact) (hp : y.pending owner = some p) :
    (y.clear owner p.operationId).count p.operationId = 0 ∧
      (y.clear owner p.operationId).approvals p.operationId = fun _ => false := by
  have htally := h.tally owner p hp
  unfold clear
  by_cases hzero : y.count p.operationId = 0
  · rw [if_pos hzero]
    exact ⟨hzero, (hzero ▸ htally).flag_eq⟩
  · rw [if_neg hzero]
    have hflags : clearFlags (y.guardians owner) (y.approvals p.operationId) = fun _ => false :=
      Poll.cleared_eq htally.flagged
    simp [hflags]

/-- The slot of an owner is emptied, with the approvals of what was in it. -/
theorem Exact.settled (h : y.Exact) (hdistinct : y.Distinct) (hp : y.pending owner = some p) :
    ((y.clear owner p.operationId).setPending owner none).Exact := by
  have hother : ∀ a q, Function.update y.pending owner none a = some q → a ≠ owner ∧
      y.pending a = some q ∧ q.operationId ≠ p.operationId := by
    intro a q hq
    have ha : a ≠ owner := by
      intro ha
      rw [ha, Function.update_self] at hq
      cases hq
    rw [Function.update_of_ne ha] at hq
    exact ⟨ha, hq, fun hid => ha (hdistinct a owner q p hq hp hid)⟩
  refine ⟨fun a => ?_, fun a q hq => ?_, fun operationId hid => ?_⟩
  · simpa [setPending] using h.reachable a
  · obtain ⟨-, hq, hne⟩ := hother a q (by simpa [setPending] using hq)
    obtain ⟨hcount, happrovals⟩ := clear_of_ne y owner hne
    simp only [setPending, clear_guardians, hcount, happrovals]
    exact h.tally a q hq
  · by_cases hsame : operationId = p.operationId
    · rw [hsame]
      exact h.cleared hp
    · obtain ⟨hcount, happrovals⟩ := clear_of_ne y owner hsame
      simp only [setPending, hcount, happrovals]
      refine h.idle operationId fun a q hq => ?_
      by_cases ha : a = owner
      · rw [ha, hp] at hq
        exact Option.some.inj hq ▸ Ne.symm hsame
      · refine hid a q ?_
        simpa [setPending, Function.update_of_ne ha] using hq

/-- The guardians of an owner are replaced, with the approvals of its pending operation. -/
theorem Exact.guarded (h : y.Exact) (hdistinct : y.Distinct) {guardians : List Address}
    (hquorum : y.threshold owner ≤ guardians.length) :
    ((y.clearPending owner).setGuardians owner guardians).Exact := by
  unfold clearPending
  cases hp : y.pending owner with
  | none =>
      refine ⟨fun a => ?_, fun a q hq => ?_, h.idle⟩
      · by_cases ha : a = owner
        · simpa [setGuardians, ha] using hquorum
        · simpa [setGuardians, Function.update_of_ne ha] using h.reachable a
      · have ha : a ≠ owner := by
          rintro rfl
          exact absurd (hp.symm.trans hq) (Option.some_ne_none q).symm
        simpa [setGuardians, Function.update_of_ne ha] using h.tally a q hq
  | some p =>
      obtain ⟨hzero, hnone⟩ := h.cleared hp
      refine ⟨fun a => ?_, fun a q hq => ?_, fun operationId hid => ?_⟩
      · by_cases ha : a = owner
        · simpa [setGuardians, ha] using hquorum
        · simpa [setGuardians, Function.update_of_ne ha] using h.reachable a
      · have hq' : y.pending a = some q := by simpa [setGuardians] using hq
        by_cases ha : a = owner
        · have hpq : p = q := Option.some.inj (hp.symm.trans (ha ▸ hq'))
          subst hpq
          simp only [setGuardians, hzero, hnone]
          exact .silent _
        · have hne : q.operationId ≠ p.operationId :=
            fun hid => ha (hdistinct a owner q p hq' hp hid)
          obtain ⟨hcount, happrovals⟩ := clear_of_ne y owner hne
          simp only [setGuardians, clear_guardians, hcount, happrovals, Function.update_of_ne ha]
          exact h.tally a q hq'
      · have hne : operationId ≠ p.operationId :=
          fun hsame => hid owner p (by simpa [setGuardians] using hp) hsame.symm
        obtain ⟨hcount, happrovals⟩ := clear_of_ne y owner hne
        simp only [setGuardians, hcount, happrovals]
        exact h.idle operationId (by simpa [setGuardians] using hid)

/-- What is pending stays so when something is queued in an empty slot. -/
theorem setPending_kept (hempty : y.pending owner = none) {a : Address} {q : PendingWithdrawal}
    (hq : y.pending a = some q) : (y.setPending owner (some p)).pending a = some q := by
  have ha : a ≠ owner := by
    rintro rfl
    exact absurd (hempty.symm.trans hq) (Option.some_ne_none q).symm
  simpa [setPending, Function.update_of_ne ha] using hq

/-- An operation that is queued has no approval yet. -/
theorem Exact.fresh (h : y.Exact) (hempty : y.pending owner = none)
    (hdistinct : (y.setPending owner (some p)).Distinct) :
    y.count p.operationId = 0 ∧ y.approvals p.operationId = fun _ => false := by
  refine h.idle p.operationId fun a q hq hsame => ?_
  have hself : (y.setPending owner (some p)).pending owner = some p := by simp [setPending]
  have ha : a = owner := hdistinct a owner q p (setPending_kept hempty hq) hself hsame
  rw [ha, hempty] at hq
  cases hq

/-- An operation is queued that no owner has pending. -/
theorem Exact.queued (h : y.Exact) (hempty : y.pending owner = none)
    (hdistinct : (y.setPending owner (some p)).Distinct) :
    (y.setPending owner (some p)).Exact := by
  refine ⟨h.reachable, fun a q hq => ?_, fun operationId hid => ?_⟩
  · by_cases ha : a = owner
    · have hpq : p = q := by simpa [setPending, ha] using hq
      subst hpq
      obtain ⟨hzero, hnone⟩ := h.fresh hempty hdistinct
      show Poll.Tally (y.guardians a) (y.approvals p.operationId) (y.count p.operationId)
      rw [hzero, hnone]
      exact .silent _
    · have hq' : y.pending a = some q := by simpa [setPending, Function.update_of_ne ha] using hq
      exact h.tally a q hq'
  · exact h.idle operationId fun a q hq => hid a q (setPending_kept hempty hq)

/-- A guardian approves its owner's pending operation. -/
theorem Exact.approved (h : y.Exact) (hdistinct : y.Distinct) {guardian : Address}
    (hnodup : (y.guardians owner).Nodup) (hp : y.pending owner = some p)
    (hguardian : guardian ∈ y.guardians owner)
    (hnew : y.approvals p.operationId guardian = false) :
    (y.approve p.operationId guardian).Exact := by
  refine ⟨h.reachable, fun a q hq => ?_, fun operationId hid => ?_⟩
  · by_cases hsame : q.operationId = p.operationId
    · have ha : a = owner := hdistinct a owner q p hq hp hsame
      subst ha
      simp only [approve, hsame, Function.update_self]
      exact (h.tally a p hp).vote hnodup hguardian hnew
    · simp only [approve, Function.update_of_ne hsame]
      exact h.tally a q hq
  · have hne : operationId ≠ p.operationId := fun hsame => hid owner p hp hsame.symm
    simp only [approve, Function.update_of_ne hne]
    exact h.idle operationId hid

/-- **Every step keeps the tallies.** -/
theorem Exact.step {s : Segment Call Frame Answer} {y' : Treasury} (h : y.Exact)
    (hdistinct : y.Distinct) (hdistinct' : y'.Distinct) (hnodup : ∀ a, (y.guardians a).Nodup)
    (hs : TreasuryStep s y y') : y'.Exact := by
  cases hs with
  | kept => exact h
  | guarded _ hquorum => exact h.guarded hdistinct hquorum
  | @armed owner threshold _ hreach =>
      refine ⟨fun a => ?_, h.tally, h.idle⟩
      by_cases ha : a = owner
      · simpa [ha] using hreach
      · simpa [Function.update_of_ne ha] using h.reachable a
  | approved _ hp hguardian hnew => exact h.approved hdistinct (hnodup _) hp hguardian hnew
  | queued _ hempty => exact h.queued hempty hdistinct'
  | settled _ hp => exact h.settled hdistinct hp

/-- An approval of what is pending was there before, with the same guardians, or is the one an
activation has just given. -/
theorem Exact.approvals_step {s : Segment Call Frame Answer} {y' : Treasury} {a : Address}
    (h : y.Exact) (hdistinct : y.Distinct) (hdistinct' : y'.Distinct) (hs : TreasuryStep s y y')
    (hp : y'.pending owner = some p) (ha : y'.approvals p.operationId a = true) :
    y.pending owner = some p ∧ (y.approvals p.operationId a = true ∧ setsGuardians owner s = false ∨
      ∃ around, s = .enter ⟨a, around, .approveTreasuryWithdrawal owner p.operationId⟩) := by
  cases hs with
  | kept hquiet => exact ⟨hp, .inl ⟨ha, hquiet owner⟩⟩
  | @guarded b around guardians hseg =>
      subst hseg
      unfold clearPending at hp ha
      cases hq : y.pending b with
      | none =>
          rw [hq] at hp ha
          have hp' : y.pending owner = some p := hp
          have hb : b ≠ owner := by
            rintro rfl
            exact absurd (hq.symm.trans hp') (Option.some_ne_none p).symm
          exact ⟨hp', .inl ⟨ha, by simpa [setsGuardians] using hb⟩⟩
      | some q =>
          rw [hq] at hp ha
          have hp' : y.pending owner = some p := by simpa [setGuardians] using hp
          by_cases hsame : p.operationId = q.operationId
          · have hnone := (h.cleared hq).2
            simp only [setGuardians, hsame, hnone] at ha
            exact absurd ha Bool.false_ne_true
          · have hb : b ≠ owner := by
              rintro rfl
              obtain rfl := Option.some.inj (hq.symm.trans hp')
              exact hsame rfl
            simp only [setGuardians, (clear_of_ne _ _ hsame).2] at ha
            exact ⟨hp', .inl ⟨ha, by simpa [setsGuardians] using hb⟩⟩
  | armed hquiet => exact ⟨hp, .inl ⟨ha, hquiet owner⟩⟩
  | @approved b guardian around q hseg hq =>
      have hp' : y.pending owner = some p := hp
      subst hseg
      by_cases hsame : p.operationId = q.operationId
      · have hb : owner = b := hdistinct owner b p q hp' hq hsame
        subst hb
        by_cases hguardian : a = guardian
        · exact ⟨hp', .inr ⟨around, by rw [hguardian, hsame]⟩⟩
        · simp only [approve, hsame, Function.update_self, Poll.voted_of_ne hguardian] at ha
          exact ⟨hp', .inl ⟨hsame ▸ ha, rfl⟩⟩
      · simp only [approve, Function.update_of_ne hsame] at ha
        exact ⟨hp', .inl ⟨ha, rfl⟩⟩
  | @queued b q hquiet hempty =>
      by_cases hb : owner = b
      · have hpq : q = p := by simpa [setPending, hb] using hp
        subst hpq
        have hnone := (h.fresh hempty hdistinct').2
        simp only [setPending, hnone] at ha
        exact absurd ha Bool.false_ne_true
      · have hp' : y.pending owner = some p := by
          simpa [setPending, Function.update_of_ne hb] using hp
        exact ⟨hp', .inl ⟨ha, hquiet owner⟩⟩
  | @settled b q hquiet hq =>
      have hb : owner ≠ b := by
        rintro rfl
        simp [setPending] at hp
      have hp' : y.pending owner = some p := by
        simpa [setPending, Function.update_of_ne hb] using hp
      have hne : p.operationId ≠ q.operationId :=
        fun hsame => hb (hdistinct owner b p q hp' hq hsame)
      simp only [setPending, (clear_of_ne _ _ hne).2] at ha
      exact ⟨hp', .inl ⟨ha, hquiet owner⟩⟩

end Treasury

/-! ## Every run -/

/-- A guardian has approved what is pending, when it was already pending, and neither the slot
nor the guardians have changed since. -/
def ApprovedSince (owner : Address) (p : PendingWithdrawal) (guardian : Address)
    (journal : List VaultEntry) : Prop :=
  ∃ held e earlier, journal = held ++ e :: earlier ∧
    Called e guardian (.approveTreasuryWithdrawal owner p.operationId) ∧
    e.before.vault.pendingWithdrawals owner = some p ∧
    ∀ e' ∈ held, setsGuardians owner e'.seg = false ∧
      e'.after.vault.pendingWithdrawals owner = some p

/-- What every configuration of a run satisfies about the treasury quorums. -/
structure TreasuryInv (journal : List VaultEntry) (v : State) : Prop where
  exact : v.treasury.Exact
  approved : ∀ owner p guardian, v.pendingWithdrawals owner = some p →
    v.treasuryApprovals p.operationId guardian = true → ApprovedSince owner p guardian journal

/-- Two owners sign for different operations. -/
theorem AuthorityInv.distinct {fs : List Frame} (h : AuthorityInv d journal v fs) :
    v.treasury.Distinct := by
  intro a b p q hp hq hid
  obtain ⟨r, rfl, hr, -⟩ := h.pending a p hp
  obtain ⟨r', rfl, hr', -⟩ := h.pending b q hq
  have hhash : hashWithdrawal d r = hashWithdrawal d r' :=
    hr.operationId.symm.trans (hid.trans hr'.operationId)
  rw [hashWithdrawal_inj.mp hhash]

/-- Nothing is stored about quorums when the contract is deployed. -/
theorem construct_treasury {verifier : Address} {eth : ℕ}
    (h : construct ctx verifier (.blank eth) = .ok v) :
    v.treasury = ⟨fun _ => [], fun _ => 0, fun _ => none, fun _ => 0, fun _ _ => false⟩ := by
  simp only [construct, transferOwnershipTo, bind_eq_ok, revertIf_eq_ok, exists_const,
    guarded_eq_ok, pure_eq_ok] at h
  obtain ⟨-, _, ⟨_, -, rfl⟩, -, identity, -, rfl⟩ := h
  rfl

/-- In every configuration that is reached the treasury is what its journal says, and the vault is
in order. -/
theorem treasuryInv (d : Deployment) :
    (machine d).Invariant (Fresh d) Machine.anywhere
      (fun m fs => ((VaultInv m.world.vault fs ∧ AuthorityInv d m.journal m.world.vault fs) ∧
        RecoveryInv m.journal m.world.vault) ∧ TreasuryInv m.journal m.world.vault) := by
  refine ((authorityInv d).and (recoveryInv d)).extend (fun w hw _ => ?_)
    (fun m s o fs hi hq _ hr _ hi' => ?_) (fun m ev _ hq _ => hq)
  · obtain ⟨deployer, around, verifier, eth, h⟩ := hw
    have hview := construct_treasury h
    refine ⟨?_, fun owner p guardian hp => ?_⟩
    · show w.vault.treasury.Exact
      rw [hview]
      exact ⟨fun _ => le_rfl, nofun, fun _ _ => ⟨rfl, rfl⟩⟩
    · have hnone : w.vault.pendingWithdrawals = fun _ => none := congrArg Treasury.pending hview
      exact absurd ((congrFun hnone owner).symm.trans hp) (Option.some_ne_none p).symm
  · have hstep := (ran_of_run hr).treasury hi.1.1
    have hdistinct := hi.1.2.distinct
    have hdistinct' : o.after.vault.treasury.Distinct := hi'.1.2.distinct
    refine ⟨?_, fun owner p guardian hp hflag => ?_⟩
    · exact hq.exact.step hdistinct hdistinct' (fun a => (hi.2.exact a).nodup) hstep
    · obtain ⟨hbefore, hold | ⟨around, rfl⟩⟩ :=
        hq.exact.approvals_step hdistinct hdistinct' hstep hp hflag
      · obtain ⟨held, e, earlier, hj, hcall, hpending, hquiet⟩ :=
          hq.approved owner p guardian hbefore hold.1
        refine ⟨⟨s, m.world, o⟩ :: held, e, earlier, ?_, hcall, hpending, ?_⟩
        · simp [Moment.extend, hj]
        · rintro e' (_ | ⟨_, he'⟩)
          · exact ⟨hold.2, hp⟩
          · exact hquiet e' he'
      · exact ⟨[], _, m.journal, rfl, ⟨around, rfl⟩, hbefore, by simp⟩

/-- The count of an operation is exact, and no approval of it is stale. -/
structure QuorumExact (d : Deployment) (v : State) (operationId : Bytes32) : Prop where
  counted : {a | v.treasuryApprovals operationId a = true}.ncard =
    v.treasuryApprovalCount operationId
  /-- Whoever approved is now a guardian of the owner of the operation. -/
  guardians : ∀ a, v.treasuryApprovals operationId a = true →
    ∃ r, operationId = hashWithdrawal d r ∧ a ∈ v.vaultGuardians r.vaultOwner
  /-- Only what its owner has pending has approvals. -/
  pending : v.treasuryApprovalCount operationId ≠ 0 →
    ∃ r p, operationId = hashWithdrawal d r ∧
      v.pendingWithdrawals r.vaultOwner = some p ∧ p.operationId = operationId

/-- The entry `e`, with `earlier` before it, finalized what had its quorum. -/
def FinalizedWithQuorum (owner : Address) (operationId : Bytes32) (e : VaultEntry)
    (earlier : List VaultEntry) : Prop :=
  ∃ p, e.before.vault.pendingWithdrawals owner = some p ∧ p.operationId = operationId ∧
    ∃ ayes : List Address, ayes.Nodup ∧
      e.before.vault.treasuryQuorumThreshold owner ≤ ayes.length ∧
      ∀ a ∈ ayes, a ∈ e.before.vault.vaultGuardians owner ∧ ApprovedSince owner p a earlier

/-- An armed quorum of an owner can be reached by its guardians. -/
structure QuorumReachable (d : Deployment) (w : World) (owner : Address) : Prop where
  threshold : w.vault.treasuryQuorumThreshold owner ≤ (w.vault.vaultGuardians owner).length
  /-- As long as the quorum of what is pending is not met, there is a guardian whose approval
  succeeds and is counted. -/
  progress : ∀ p, w.vault.pendingWithdrawals owner = some p →
    w.vault.treasuryApprovalCount p.operationId < w.vault.treasuryQuorumThreshold owner →
    ∃ guardian ∈ w.vault.vaultGuardians owner, ∀ around, ∃ o,
      (machine d).enter ⟨guardian, around, .approveTreasuryWithdrawal owner p.operationId⟩ w =
        .ok o ∧ o.after.vault.treasuryApprovalCount p.operationId =
          w.vault.treasuryApprovalCount p.operationId + 1

/-- A tally among so few guardians is exact for the operation. -/
theorem TreasuryInv.quorumExact {fs : List Frame} (h : TreasuryInv journal v)
    (hauth : AuthorityInv d journal v fs) (hrecovery : RecoveryInv journal v)
    (operationId : Bytes32) :
    QuorumExact d v operationId := by
  by_cases hheld : ∃ owner p, v.pendingWithdrawals owner = some p ∧ p.operationId = operationId
  · obtain ⟨owner, p, hp, rfl⟩ := hheld
    obtain ⟨r, rfl, hfor, -⟩ := hauth.pending owner p hp
    have htally := h.exact.tally r.vaultOwner p hp
    have hnodup : (v.vaultGuardians r.vaultOwner).Nodup := (hrecovery.exact r.vaultOwner).nodup
    exact ⟨htally.ncard hnodup, fun a ha => ⟨r, hfor.operationId, htally.flagged a ha⟩,
      fun _ => ⟨r, p, hfor.operationId, hp, rfl⟩⟩
  · have hidle : ∀ owner p, v.treasury.pending owner = some p → p.operationId ≠ operationId :=
      fun owner p hp hid => hheld ⟨owner, p, hp, hid⟩
    obtain ⟨hzero, hnone⟩ := h.exact.idle operationId hidle
    have hcount : v.treasuryApprovalCount operationId = 0 := hzero
    have hflags : v.treasuryApprovals operationId = fun _ => false := hnone
    refine ⟨?_, fun a ha => ?_, fun hne => absurd hcount hne⟩
    · simp [hcount, hflags]
    · rw [hflags] at ha
      exact absurd ha Bool.false_ne_true

/-- The guardians can reach a quorum that is not met. -/
theorem TreasuryInv.quorumReachable {w : World} (h : TreasuryInv journal w.vault)
    (hrecovery : RecoveryInv journal w.vault) (owner : Address) : QuorumReachable d w owner where
  threshold := h.exact.reachable owner
  progress p hp hshort := by
    have htally := h.exact.tally owner p hp
    have hexact := hrecovery.exact owner
    obtain ⟨guardian, hguardian, hnew⟩ := htally.open_vote (h.exact.reachable owner) hshort
    have hmax : (w.vault.vaultGuardians owner).length ≤ 32 := hexact.max
    have hreach : w.vault.treasuryQuorumThreshold owner ≤ (w.vault.vaultGuardians owner).length :=
      h.exact.reachable owner
    have hfits : w.vault.treasuryApprovalCount p.operationId + 1 < 2 ^ 256 := by
      have hlarge : 33 < 2 ^ 256 := by decide
      omega
    refine ⟨guardian, hguardian, fun around => ?_⟩
    have hnew' : w.vault.treasuryApprovals p.operationId guardian = false := hnew
    have hguardian' : guardian ∈ w.vault.vaultGuardians owner := hguardian
    simp only [machine, dispatch, finished, map_eq_ok, approveTreasuryWithdrawal, bind_eq_ok,
      orRevert_eq_ok, exists_const, revertIf_eq_ok, requireGuardian_eq_ok, addU_eq_ok, pure_eq_ok,
      ne_eq, not_not, Bool.not_eq_true]
    refine ⟨_, ⟨_, ⟨_, ⟨p, hp, rfl, hguardian', hnew', _, ⟨hfits, rfl⟩, rfl⟩, rfl⟩, rfl⟩, ?_⟩
    simp [World.lift]

/-- **Treasury quorums are exact and never stale.** In every run the count of every operation is
that of its approvals, all by current guardians of the owner who has it pending; an armed quorum
can be reached; and whatever was finalized had its quorum, given while it was pending and by
guardians who are still the guardians. -/
theorem treasury_quorums_are_exact {c : VaultConfig}
    (hc : (machine d).Reachable (Fresh d) Machine.anywhere c) :
    (∀ operationId, QuorumExact d c.now.world.vault operationId) ∧
    (∀ owner, QuorumReachable d c.now.world owner) ∧
    ∀ later e earlier sender owner operationId, c.now.journal = later ++ e :: earlier →
      Called e sender (.finalizeWithdrawal owner operationId) →
      FinalizedWithQuorum owner operationId e earlier := by
  obtain ⟨⟨⟨-, hauth⟩, hrecovery⟩, hinv⟩ := (treasuryInv d).holds hc
  refine ⟨fun operationId => hinv.quorumExact hauth hrecovery operationId,
    fun owner => hinv.quorumReachable hrecovery owner,
    fun later e earlier sender owner operationId hj hcall => ?_⟩
  obtain ⟨stack, fs, hat⟩ := hc.entry hj
  obtain ⟨⟨-, hrecovery⟩, hinv⟩ := hat.holds (treasuryInv d)
  obtain ⟨around, hseg⟩ := hcall
  obtain ⟨seg, w, ow⟩ := e
  simp only at hseg
  subst hseg
  have hran : Ran d w (.enter ⟨sender, around, .finalizeWithdrawal owner operationId⟩) ow :=
    ran_of_run hat.runs
  cases hran with
  | @call _ o he =>
      cases he with
      | @finalizeWithdrawal _ _ p hu hrun hpending hready hquorum =>
          obtain ⟨hheld, -, rfl⟩ := hpending
          have htally := hinv.exact.tally owner p hheld
          obtain ⟨ayes, hnodup, henough, hayes⟩ :=
            htally.enough (hrecovery.exact owner).nodup hquorum
          refine ⟨p, hheld, rfl, ayes, hnodup, henough, fun a ha => ?_⟩
          obtain ⟨hguardian, hflag⟩ := hayes a ha
          exact ⟨hguardian, hinv.approved owner p a hheld hflag⟩
      | depositTo hop => rcases hop with ⟨h, -⟩ | h <;> cases h

/-- A request for more than the threshold of the run below. -/
def largeRequest : Withdrawal := ⟨.of 4, .of 5, 4, 0, 1000000, 0⟩

/-- An owner arms a quorum of two of its three guardians and queues a large withdrawal. -/
def quorumRun : List (Machine.Move Call Answer ℕ) :=
  [plainCall 4 (.createVault (.of 3) [] .EcdsaOnly 10),
    plainCall 4 (.setGuardians [.of 5, .of 6, .of 7]), plainCall 4 (.setTreasuryQuorumThreshold 2),
    plainCall 1 (.proposeLargeTxParams 1 60), .tick (2 * 24 * 60 * 60),
    plainCall 1 .applyLargeTxParams,
    plainCall 6 (.queueWithdrawal largeRequest plainSignature [])]

/-- Two of the guardians approve, and the withdrawal is finalized a minute later. -/
def quorumMetRun : List (Machine.Move Call Answer ℕ) :=
  quorumRun ++
    [plainCall 5 (.approveTreasuryWithdrawal (.of 4) (hashWithdrawal plainDeployment largeRequest)),
      plainCall 7 (.approveTreasuryWithdrawal (.of 4) (hashWithdrawal plainDeployment largeRequest)),
      .tick 60,
      plainCall 4 (.finalizeWithdrawal (.of 4) (hashWithdrawal plainDeployment largeRequest)),
      plainAnswer]

/-- The entry finalizes that withdrawal, after two approvals. -/
def finalizesLarge (e : VaultEntry) : Bool :=
  match e.seg with
  | .enter ⟨_, _, .finalizeWithdrawal owner operationId⟩ =>
      owner == .of 4 && operationId == hashWithdrawal plainDeployment largeRequest &&
        e.before.vault.treasuryApprovalCount operationId == 2
  | _ => false

/-- An entry that is recognised as the finalization of the run below is a call of
**finalizeWithdrawal** by somebody. -/
theorem called_of_finalizesLarge {e : VaultEntry} (h : finalizesLarge e = true) :
    ∃ sender, Called e sender
      (.finalizeWithdrawal (.of 4) (hashWithdrawal plainDeployment largeRequest)) := by
  unfold finalizesLarge at h
  split at h
  · next sender around owner operationId hseg =>
      simp only [Bool.and_eq_true, beq_iff_eq] at h
      obtain ⟨⟨rfl, rfl⟩, -⟩ := h
      exact ⟨sender, around, hseg⟩
  · cases h

set_option maxRecDepth 2000 in
/-- After the first run the quorum is armed and not met, and can be reached; the second meets it
and pays. -/
theorem treasury_quorums_are_exact_queued :
    (∃ c p, (machine plainDeployment).follow (fun _ _ => true) quorumRun (plainStart 1) = some c ∧
      c.now.world.vault.pendingWithdrawals (.of 4) = some p ∧
      c.now.world.vault.treasuryQuorumThreshold (.of 4) = 2 ∧
      c.now.world.vault.treasuryApprovalCount p.operationId = 0 ∧
      QuorumExact plainDeployment c.now.world.vault p.operationId ∧
      QuorumReachable plainDeployment c.now.world (.of 4)) ∧
    ∃ c later e earlier,
      (machine plainDeployment).follow (fun _ _ => true) quorumMetRun (plainStart 1) = some c ∧
      c.now.journal = later ++ e :: earlier ∧ finalizesLarge e = true ∧
      FinalizedWithQuorum (.of 4) (hashWithdrawal plainDeployment largeRequest) e earlier := by
  have hstart : (machine plainDeployment).Reachable (Fresh plainDeployment) Machine.anywhere
      (plainStart 1) := .start (plainStart_fresh 1) trivial
  refine ⟨⟨_, _, rfl, rfl, rfl, rfl, ?_⟩, ?_⟩
  · have hc := hstart.follow (fun _ _ => true) (fun _ _ _ => trivial) quorumRun rfl
    exact ⟨(treasury_quorums_are_exact hc).1 _, (treasury_quorums_are_exact hc).2.1 (.of 4)⟩
  · have hmet : ((machine plainDeployment).follow (fun _ _ => true) quorumMetRun
        (plainStart 1)).any (fun c => c.now.journal.any finalizesLarge) = true := by
      decide +kernel
    obtain ⟨c, hrun, hany⟩ := (Option.any_eq_true _ _).mp hmet
    obtain ⟨e, he, hfinal⟩ := List.any_eq_true.mp hany
    obtain ⟨later, earlier, hj⟩ := List.append_of_mem he
    obtain ⟨sender, hcall⟩ := called_of_finalizesLarge hfinal
    have hc := hstart.follow (fun _ _ => true) (fun _ _ _ => trivial) quorumMetRun hrun
    exact ⟨c, later, e, earlier, hrun, hj, hfinal,
      (treasury_quorums_are_exact hc).2.2 later e earlier sender _ _ hj hcall⟩

end WalletWall.WalletWallVault

import WalletWall.Analysis.Announcements
import WalletWall.Analysis.SimulatorGovernance

/-!
# The halt lever and the rotation lever are in different hands

`WalletWallVault`, `StablecoinVaultSimulator` and `WalletWallMultiSigVault` handle their seats
as `VerifierRotationGuard` expects, so what `Consumer.Guarded.leversApart` says of one holds of
all three. The verifiers are taken to report the same halt principal and the same identity
whenever a call concerns them, the constructor included; a verifier that is installed before
it has code and reports something else once it has is none of these. That a halt lasts is not
needed.
-/

set_option autoImplicit false

namespace WalletWall

open Library VerifierRotationGuard
open WalletWallVault (Deployment)

/-- The configurations of the stablecoin vault. -/
abbrev StablecoinVaultSimulator.SimulatorConfig :=
  Machine.Config StablecoinVaultSimulator.World StablecoinVaultSimulator.Call
    StablecoinVaultSimulator.Frame WalletWallVault.Answer Unit

/-- **The halt lever and the rotation lever stay apart** in the three contracts: the owner can halt
no verifier in use or proposed, and nothing halted is installed. -/
theorem levers_stay_apart {R : Reports} {d d' d'' : Deployment} {c : WalletWallVault.VaultConfig}
    {c' : StablecoinVaultSimulator.SimulatorConfig} {c'' : WalletWallMultiSigVault.MultiSigConfig}
    (hc : (WalletWallVault.consumer d).Honest R (WalletWallVault.machine d) c)
    (hc' : (StablecoinVaultSimulator.consumer d').Honest R (StablecoinVaultSimulator.machine d') c')
    (hc'' : (WalletWallMultiSigVault.consumer d'').Honest R (WalletWallMultiSigVault.machine d'')
      c'') :
    (WalletWallVault.consumer d).LeversApart R (WalletWallVault.machine d) c ∧
    (StablecoinVaultSimulator.consumer d').LeversApart R (StablecoinVaultSimulator.machine d') c' ∧
    (WalletWallMultiSigVault.consumer d'').LeversApart R (WalletWallMultiSigVault.machine d'') c'' :=
  ⟨(WalletWallVault.consumer_guarded d).leversApart hc,
    (StablecoinVaultSimulator.consumer_guarded d').leversApart hc',
    (WalletWallMultiSigVault.consumer_guarded d'').leversApart hc''⟩

/-! ## A halted verifier is left -/

/-- Verifier 2 can be halted by account 11, and each verifier runs a program of its own. -/
def leverProbes (halted : Bool) : Probes where
  probe a
    | .HALT_PRINCIPAL => if a = .of 2 then some 11 else none
    | .halted => if a = .of 2 then some halted.toNat else none
    | .SP1_VERIFIER => some 20
    | .PROGRAM_VKEY => some a.val
  codehash _ := .word 1

/-- What these verifiers report. -/
def leverReports : Reports where
  principal := haltPrincipalOf (leverProbes false)
  identity := identityOf (leverProbes false)

/-- What the verifiers of the runs below report they keep, halted or not. -/
theorem leverReports_keeps (halted : Bool) (a : Address) :
    leverReports.Keeps (leverProbes halted) a := ⟨rfl, rfl⟩

/-- A rotation away from verifier 2, which is halted while the proposal waits: the calls, given
one call of a contract for each act and for each state of the verifier. -/
def leverRun {Call Answer : Type} (propose apply : Bool → Call) :
    List (Machine.Move Call Answer ℕ) :=
  [.enter (propose false), .tick 172800, .enter (apply true)]

/-- In such a run the verifiers report what they always do. -/
theorem leverRun_keeps {Call Answer : Type} {probes : Call → Probes} {propose apply : Bool → Call}
    (hpropose : ∀ h, probes (propose h) = leverProbes h)
    (happly : ∀ h, probes (apply h) = leverProbes h) :
    ∀ call, .enter call ∈ (leverRun propose apply : List (Machine.Move Call Answer ℕ)) →
      ∀ a, leverReports.Keeps (probes call) a := by
  intro call hcall a
  simp only [leverRun, List.mem_cons, Machine.Move.enter.injEq, reduceCtorEq, List.not_mem_nil,
    or_false, false_or] at hcall
  rcases hcall with rfl | rfl
  · rw [hpropose]
    exact leverReports_keeps false a
  · rw [happly]
    exact leverReports_keeps true a

/-- What a call sees while verifier 2 is halted, or is not. -/
def leverAround (halted : Bool) : WalletWallVault.Around :=
  { WalletWallVault.plainAround with toProbes := leverProbes halted }

def multiSigLeverAround (halted : Bool) : WalletWallMultiSigVault.Around :=
  { WalletWallMultiSigVault.plainAround with toProbes := leverProbes halted }

/-- A call by the owner. -/
def vaultLeverCall (op : WalletWallVault.Op) (halted : Bool) : WalletWallVault.Call :=
  ⟨.of 1, leverAround halted, op⟩

def simulatorLeverCall (op : StablecoinVaultSimulator.Op) (halted : Bool) :
    StablecoinVaultSimulator.Call :=
  ⟨.of 1, leverAround halted, op⟩

def multiSigLeverCall (op : WalletWallMultiSigVault.Op) (halted : Bool) :
    WalletWallMultiSigVault.Call :=
  ⟨.of 1, multiSigLeverAround halted, op⟩

/-- The runs of the three contracts. -/
def vaultLeverRun : List (Machine.Move WalletWallVault.Call WalletWallVault.Answer ℕ) :=
  leverRun (vaultLeverCall (.proposePQVerifier (.of 7))) (vaultLeverCall .applyPQVerifierUpdate)

def simulatorLeverRun :
    List (Machine.Move StablecoinVaultSimulator.Call WalletWallVault.Answer ℕ) :=
  leverRun (simulatorLeverCall (.proposePQVerifier (.of 7)))
    (simulatorLeverCall .applyPQVerifierUpdate)

def multiSigLeverRun : List (Machine.Move WalletWallMultiSigVault.Call Bool ℕ) :=
  leverRun (multiSigLeverCall (.proposePQVerifier (.of 7)))
    (multiSigLeverCall .applyPQVerifierUpdate)

/-- The contracts as address 1 deployed them with verifier 2. -/
def vaultLeverStart : WalletWallVault.World :=
  ⟨10, { WalletWallVault.State.blank 0 with
    owner := .of 1
    pqVerifier := .of 2
    pqVerifierIdentity := identityOf (leverProbes false) (.of 2) }⟩

def simulatorLeverStart : StablecoinVaultSimulator.World :=
  ⟨10, { StablecoinVaultSimulator.State.blank with
    token := .of 30
    owner := .of 1
    pqVerifier := .of 2
    pqVerifierIdentity := identityOf (leverProbes false) (.of 2) }⟩

def multiSigLeverStart : WalletWallMultiSigVault.World :=
  ⟨10, { WalletWallMultiSigVault.State.blank 0 with
    owner := .of 1
    pqVerifier := .of 2
    pqVerifierIdentity := identityOf (leverProbes false) (.of 2) }⟩

open WalletWallVault (plainDeployment)

/-- Runs of the three contracts in which a halted verifier is rotated out, and its identity
recorded. -/
theorem levers_stay_apart_rotated : ∃ c c' c'',
    (WalletWallVault.machine plainDeployment).follow (fun _ _ => true)
      vaultLeverRun ⟨⟨vaultLeverStart, []⟩, []⟩ = some c ∧
    (StablecoinVaultSimulator.machine plainDeployment).follow (fun _ _ => true)
      simulatorLeverRun ⟨⟨simulatorLeverStart, []⟩, []⟩ = some c' ∧
    (WalletWallMultiSigVault.machine plainDeployment).follow (fun _ _ => true)
      multiSigLeverRun ⟨⟨multiSigLeverStart, []⟩, []⟩ = some c'' ∧
    c.now.world.vault.haltedVerifierIdentities (leverReports.identity (.of 2)) = true ∧
    (WalletWallVault.consumer plainDeployment).LeversApart leverReports
      (WalletWallVault.machine plainDeployment) c ∧
    (StablecoinVaultSimulator.consumer plainDeployment).LeversApart leverReports
      (StablecoinVaultSimulator.machine plainDeployment) c' ∧
    (WalletWallMultiSigVault.consumer plainDeployment).LeversApart leverReports
      (WalletWallMultiSigVault.machine plainDeployment) c'' := by
  have hstart : (WalletWallVault.consumer plainDeployment).Honest leverReports
      (WalletWallVault.machine plainDeployment) ⟨⟨vaultLeverStart, []⟩, []⟩ :=
    .start ⟨leverProbes false, .of 1, ⟨leverAround false, .of 2, 0, rfl, rfl⟩,
      leverReports_keeps false _⟩
  have hstart' : (StablecoinVaultSimulator.consumer plainDeployment).Honest leverReports
      (StablecoinVaultSimulator.machine plainDeployment) ⟨⟨simulatorLeverStart, []⟩, []⟩ :=
    .start ⟨leverProbes false, .of 1, ⟨leverAround false, .of 30, .of 2, rfl, rfl⟩,
      leverReports_keeps false _⟩
  have hstart'' : (WalletWallMultiSigVault.consumer plainDeployment).Honest leverReports
      (WalletWallMultiSigVault.machine plainDeployment) ⟨⟨multiSigLeverStart, []⟩, []⟩ :=
    .start ⟨leverProbes false, .of 1, ⟨multiSigLeverAround false, .of 2, 0, rfl, rfl⟩,
      leverReports_keeps false _⟩
  have hc := hstart.follow vaultLeverRun (leverRun_keeps (fun _ => rfl) fun _ => rfl) rfl
  have hc' := hstart'.follow simulatorLeverRun (leverRun_keeps (fun _ => rfl) fun _ => rfl) rfl
  have hc'' := hstart''.follow multiSigLeverRun (leverRun_keeps (fun _ => rfl) fun _ => rfl) rfl
  exact ⟨_, _, _, rfl, rfl, rfl, rfl, levers_stay_apart hc hc' hc''⟩

end WalletWall

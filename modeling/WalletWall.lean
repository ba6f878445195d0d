import WalletWall.Library.BigEndian
import WalletWall.Library.Checked
import WalletWall.Library.Json
import WalletWall.Library.Doubles
import WalletWall.Library.DoubleOrder
import WalletWall.Library.Histories
import WalletWall.Library.Transitions
import WalletWall.Library.Machine
import WalletWall.Library.Timelock
import WalletWall.Library.Transactions
import WalletWall.Library.Books
import WalletWall.Library.Ring
import WalletWall.Library.Rolling
import WalletWall.Library.Episodes
import WalletWall.Library.Poll
import WalletWall.Library.Purge
import WalletWall.Library.Custody
import WalletWall.Library.Decimals
import WalletWall.Library.Utf8
import WalletWall.Library.JsStrings
import WalletWall.Library.WhiteSpace
import WalletWall.Library.Composition
import WalletWall.Library.Lockstep
import WalletWall.Library.Chunks
import WalletWall.Library.Descent
import WalletWall.Library.Postings
import WalletWall.Library.Hexadecimal
import WalletWall.Library.JsonText
import WalletWall.Library.NumberText
import WalletWall.Library.Replacement
import WalletWall.Library.JsObjects
import WalletWall.Library.Cbor
import WalletWall.Model.Prelude
import WalletWall.Model.DailySpendLimitPolicy
import WalletWall.Model.DailySpendWords
import WalletWall.Model.GuardianQuorum
import WalletWall.Model.WithdrawalProgram
import WalletWall.Model.EgressObserver
import WalletWall.Model.AppendOnlyHistory
import WalletWall.Model.WrapperRegistry
import WalletWall.Model.ZKMLDSAVerifier
import WalletWall.Model.VaultKernelGen2
import WalletWall.Model.VaultKernelSettlement
import WalletWall.Model.VaultKernelPrototype
import WalletWall.Model.AttestationPQCVerifier
import WalletWall.Model.VerifierRotationGuard
import WalletWall.Model.WalletWallVault
import WalletWall.Model.WalletWallMultiSigVault
import WalletWall.Model.StablecoinVaultSimulator
import WalletWall.Model.CompositePolicyEngine
import WalletWall.Model.PolicyAdmission
import WalletWall.Model.PolicyControlBridge
import WalletWall.Model.PolicyControl
import WalletWall.Model.VerifierBinding
import WalletWall.Model.MetadataBoundary
import WalletWall.Model.RuntimeComparison
import WalletWall.Model.ArchivePaths
import WalletWall.Model.TarParser
import WalletWall.Model.ScannerDigest
import WalletWall.Model.SolidityNormaliser
import WalletWall.Model.EgressLineage
import WalletWall.Model.EgressAttribution
import WalletWall.Model.ProofInput
import WalletWall.Analysis.DailySpendSteps
import WalletWall.Analysis.DailySpendLedger
import WalletWall.Analysis.DailySpendRefinement
import WalletWall.Analysis.DailySpendTimelock
import WalletWall.Analysis.DailySpendIsolation
import WalletWall.Analysis.DailySpendAdmitters
import WalletWall.Analysis.DailySpendArithmetic
import WalletWall.Analysis.KernelSteps
import WalletWall.Analysis.KernelRuns
import WalletWall.Analysis.KernelLifecycle
import WalletWall.Analysis.KernelContainment
import WalletWall.Analysis.KernelContainmentWindow
import WalletWall.Analysis.KernelRecovery
import WalletWall.Analysis.KernelMigration
import WalletWall.Analysis.KernelSignatures
import WalletWall.Analysis.KernelMetadata
import WalletWall.Analysis.KernelCredentials
import WalletWall.Analysis.KernelTransfers
import WalletWall.Analysis.KernelAccounts
import WalletWall.Analysis.KernelSettlement
import WalletWall.Analysis.KernelAuthorisations
import WalletWall.Analysis.GuardianQuorum
import WalletWall.Analysis.WithdrawalProofs
import WalletWall.Analysis.SignaturePayloads
import WalletWall.Analysis.ObserverSteps
import WalletWall.Analysis.ObserverMarks
import WalletWall.Analysis.ObserverRuns
import WalletWall.Analysis.RecordHistory
import WalletWall.Analysis.RegistryFacts
import WalletWall.Analysis.RegistryHistory
import WalletWall.Analysis.BindingGate
import WalletWall.Analysis.VaultSteps
import WalletWall.Analysis.VaultMovements
import WalletWall.Analysis.VaultRuns
import WalletWall.Analysis.VaultCustody
import WalletWall.Analysis.VaultCredentials
import WalletWall.Analysis.VaultAuthority
import WalletWall.Analysis.VaultAuthorization
import WalletWall.Analysis.VaultRecovery
import WalletWall.Analysis.VaultDisplacement
import WalletWall.Analysis.VaultTreasury
import WalletWall.Analysis.VerifierSeat
import WalletWall.Analysis.MultiSigSteps
import WalletWall.Analysis.VaultGovernance
import WalletWall.Analysis.Announcements
import WalletWall.Analysis.SimulatorGovernance
import WalletWall.Analysis.SimulatorMirror
import WalletWall.Analysis.SimulatorBisimulation
import WalletWall.Analysis.SimulatorReachability
import WalletWall.Analysis.MultiSigSignatures
import WalletWall.Analysis.MultiSigPayouts
import WalletWall.Analysis.MultiSigQuorum
import WalletWall.Analysis.CompositeSteps
import WalletWall.Analysis.CompositeRuns
import WalletWall.Analysis.CompositeChecks
import WalletWall.Analysis.BridgeSteps
import WalletWall.Analysis.PolicyControlSteps
import WalletWall.Analysis.PolicyControlIntents
import WalletWall.Analysis.PolicyControlProposals
import WalletWall.Analysis.PolicyControlConsent
import WalletWall.Analysis.PolicyControlRetirement
import WalletWall.Analysis.HaltLever
import WalletWall.Analysis.MemberTrees
import WalletWall.Analysis.PaxRecords
import WalletWall.Analysis.TarChunks
import WalletWall.Analysis.FindingDigests
import WalletWall.Analysis.SourceTokens
import WalletWall.Analysis.SpanNormalisation
import WalletWall.Analysis.GenesisBinding
import WalletWall.Analysis.ProcessLineage
import WalletWall.Analysis.AttributionRecords
import WalletWall.Analysis.AttributionJudgements
import WalletWall.Analysis.ProofInputAgreement
import WalletWall.Analysis.CborReader
import WalletWall.Analysis.MetadataTrailer
import WalletWall.Analysis.RuntimeMasks
import WalletWall.Analysis.RuntimeVerdict
import WalletWall.Analysis.CoveredFreshness
import WalletWall.Analysis.PacketCapture
import WalletWall.Analysis.EvidenceValidity
import WalletWall.Analysis.ProjectionFidelity
import WalletWall.Analysis.PatchedVersions
import WalletWall.Analysis.AddressTexts
import WalletWall.Analysis.CommentStripping
import WalletWall.Library.Scripts
import WalletWall.Library.Folders
import WalletWall.Model.CircuitInstall
import WalletWall.Analysis.ParserCalls
import WalletWall.Analysis.StagedTrees
import WalletWall.Analysis.CircuitInstallation
import WalletWall.Library.Parts
import WalletWall.Analysis.AdmissionSteps
import WalletWall.Analysis.AdmissionParts
import WalletWall.Analysis.AdmissionSpending
import WalletWall.Library.Settings
import WalletWall.Model.VerifiedVault
import WalletWall.Analysis.VerifiedPayments
import WalletWall.Model.VerifierProvenance
import WalletWall.Analysis.VerifierProvenance
import WalletWall.Analysis.AdmissionProvenance
import WalletWall.Model.PayeeScreening
import WalletWall.Analysis.PayeeScreening
import WalletWall.Analysis.TarEntries
import WalletWall.Analysis.TarReading
import WalletWall.Analysis.TarSafety

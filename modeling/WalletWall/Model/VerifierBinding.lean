import WalletWall.Library.BigEndian
import WalletWall.Model.Prelude
import WalletWall.Model.WrapperRegistry
import WalletWall.Model.VerifierRotationGuard

/-!
# The binding gate

Modelled from `scripts/lib/verifier-binding.ts`: how a verifier is measured (`profileVerifier`),
the rules (`bindingRefusals`), and the entry for a rotation (`checkRotationBinding`); and from
`scripts/lib/sp1-wrapper-build.ts` how a runtime matches a recorded build.

A `Chain` is one block: its contracts answer their views with bytes, or fail. A call that the RPC
does not answer stops the gate and is no reading. Addresses and words are values here and texts in
the source; `Texts` says how they are written.
-/

set_option autoImplicit false

namespace WalletWall.VerifierBinding

open Library WrapperRegistry

/-! ## Builds -/

/-- A recorded build, as far as the gate reads it. -/
structure Build where
  id : String
  sp1VerifierCodehash : String
  template : Bytes
  metadataRegionStart : ℕ
  /-- Start and length. -/
  immutableReferences : List (ℕ × ℕ)

/-- `fill(0, start, start + length)`. -/
def fill (bytes : Bytes) (ref : ℕ × ℕ) : Bytes :=
  bytes.mapIdx fun i b => if ref.1 ≤ i ∧ i < ref.1 + ref.2 then 0 else b

/-- `matchesBuild`; `boundary` is `decodeSolcMetadataBoundary`. -/
def matchesBuild (boundary : Bytes → Option ℕ) (runtime : Bytes) (build : Build) : Bool :=
  let mask := fun bytes => (build.immutableReferences.foldl fill bytes).take build.metadataRegionStart
  decide (runtime ≠ []) && decide (runtime.length = build.template.length) &&
    decide (boundary runtime = some build.metadataRegionStart) &&
    decide (mask runtime = mask build.template)

/-- `buildMatching`: the latest build that matches. -/
def buildMatching (boundary : Bytes → Option ℕ) (runtime : Bytes) (builds : List Build) :
    Option Build :=
  builds.reverse.find? (matchesBuild boundary runtime)

/-! ## The chain -/

inductive View where
  | SP1_VERIFIER
  | PROGRAM_VKEY
  | HALT_PRINCIPAL
  | halted
  | algorithmId

/-- The chain at one block. -/
structure Chain where
  chainId : ℕ
  code : Address → Bytes
  /-- `EXTCODEHASH`. -/
  codehash : Address → Bytes32
  codehash_code : ∀ a, code a ≠ [] → codehash a = .keccakBytes (code a)
  /-- What a view returns; none where the call reverts or runs out of gas. -/
  answer : Address → View → Option Bytes

/-- `word`: the first word of an answer, where it has one. -/
def Chain.word (c : Chain) (a : Address) (view : View) : Option ℕ :=
  (c.answer a view).bind fun out => if 32 ≤ out.length then some (number (out.take 32)) else none

/-- The view behind a selector the guard probes. -/
def viewOf : VerifierRotationGuard.Selector → View
  | .HALT_PRINCIPAL => .HALT_PRINCIPAL
  | .halted => .halted
  | .SP1_VERIFIER => .SP1_VERIFIER
  | .PROGRAM_VKEY => .PROGRAM_VKEY

/-- What the guard's probes see in this block: `_probe` reads a word into scratch space where the
call succeeds and more than 0x1f bytes came back. -/
def Chain.probes (c : Chain) : VerifierRotationGuard.Probes where
  probe a selector :=
    match c.answer a (viewOf selector) with
    | some out => if out.length > 0x1f then some (number (out.take 0x20)) else none
    | none => none
  codehash := c.codehash

/-- A consumer's storage, and the name its EIP-712 domain reports. -/
structure Consumer where
  domainName : Option String
  owner : Address
  pqVerifier : Address
  pqVerifierIdentity : Bytes32
  haltedVerifierIdentities : Bytes32 → Bool

/-! ## Texts -/

/-- How addresses and words are written, by ethers. -/
structure Texts (out : Outside) where
  addressText : Address → String
  addressOf : String → Option Address
  wordText : Bytes32 → String
  getAddress_eq : ∀ s, out.getAddress s = (addressOf s).map addressText
  addressOf_text : ∀ a, addressOf (addressText a) = some a

/-! ## Measuring a verifier -/

structure VerifierProfile where
  address : Address
  hasCode : Bool
  genuineWrapper : Bool
  wrapperBuild : Option String
  pinnedSp1VerifierCodehash : Option String
  algorithmId : Option ℕ
  sp1Verifier : Option Address
  sp1VerifierCodeKeccak : Option Bytes32
  programVKey : Option ℕ
  haltPrincipal : Option Address
  halted : Option Bool
  identity : Option Bytes32

def asAddress (w : Option ℕ) : Option Address :=
  w.bind fun w => if w / 2 ^ 160 = 0 then some (.of w) else none

/-- `keccak256` of the code, where there is some. -/
def Chain.codeKeccak (c : Chain) (a : Address) : Option Bytes32 :=
  if c.code a = [] then none else some (.keccakBytes (c.code a))

def profileVerifier (boundary : Bytes → Option ℕ) (c : Chain) (builds : List Build)
    (address : Address) : VerifierProfile :=
  let sp1Verifier := asAddress (c.word address .SP1_VERIFIER)
  let programVKey := c.word address .PROGRAM_VKEY
  let haltPrincipal := asAddress (c.word address .HALT_PRINCIPAL)
  let haltedWord := c.word address .halted
  let sp1VerifierCodeKeccak := sp1Verifier.bind c.codeKeccak
  let build := buildMatching boundary (c.code address) builds
  { address := address
    hasCode := decide (c.code address ≠ [])
    genuineWrapper := build.isSome
    wrapperBuild := build.map Build.id
    pinnedSp1VerifierCodehash := build.map Build.sp1VerifierCodehash
    algorithmId := c.word address .algorithmId
    sp1Verifier := sp1Verifier
    sp1VerifierCodeKeccak := sp1VerifierCodeKeccak
    programVKey := programVKey
    haltPrincipal := if haltPrincipal = some 0 then none else haltPrincipal
    halted := haltedWord.map fun w => decide (w ≠ 0)
    identity :=
      match sp1VerifierCodeKeccak, programVKey with
      | some code, some vkey => some (keccak256 [code, .word vkey])
      | _, _ => none }

/-- `id("ZK-ML-DSA-65")`. -/
def ZK_ALGORITHM_ID : ℕ := 0x48ccbdbf39cca949419405a1fed3bccb4a488dc0b3febc640d52435c924b3c80

def isOnSp1Path (p : VerifierProfile) : Bool :=
  p.genuineWrapper || decide (p.algorithmId = some ZK_ALGORITHM_ID) || p.sp1Verifier.isSome ||
    p.programVKey.isSome || p.haltPrincipal.isSome || p.halted.isSome

def isHaltable (p : VerifierProfile) : Bool := p.haltPrincipal.isSome && p.halted.isSome

def measuredCompletely (p : VerifierProfile) : Bool :=
  p.haltPrincipal.isSome && p.halted.isSome && p.identity.isSome

/-! ## The gate -/

def LOCAL_CHAIN_IDS : List ℕ := [31337, 1337]

structure Exclusion where
  consumer : String
  gate : String
  interim : String
  authorizedBy : String

structure HaltScope where
  applies : List String
  excludedUntilRecoverable : List Exclusion

structure Designation where
  source : String
  sp1VerifierCodeKeccak : String
  sp1VerifierCodeKeccakByChain : String → Option String
  programVKey : String

structure BindingRequest where
  consumer : String
  target : VerifierProfile
  chainId : ℕ
  signer : String
  allowMockSp1 : Bool
  current : Option VerifierProfile
  currentIdentity : Option Bytes32
  targetIdentityRecordedHalted : Bool
  scope : HaltScope
  designations : List Designation
  registered : List VerifierProfile
  registry : Json

variable {out : Outside} (tx : Texts out)

/-- `if (c) refusals.push(e)`. -/
def refuse (c : Bool) (e : String) : List String := if c then [e] else []

/-- `String` of a text or null. -/
def shown (x : Option String) : String := x.getD "null"

def unmeasured (p : VerifierProfile) (role : String) : String :=
  role ++ " " ++ tx.addressText p.address ++
    " is a genuine wrapper whose halt principal, halt state or identity could not be measured " ++
    "(an SP1 verifier without code?): refusing rather than skipping the rules that need it"

/-- `recorded === live`, of a fact's field and a measured text or null. -/
def agrees (recorded : Option Json) (live : Option String) : Bool :=
  match recorded, live with
  | some (.str s), some t => s == t
  | some .null, none => true
  | _, _ => false

def identityText (p : VerifierProfile) : Option String := p.identity.map tx.wordText

def vkeyText (p : VerifierProfile) : Option String := p.programVKey.map fun w => tx.wordText (.word w)

def codeText (p : VerifierProfile) : Option String := p.sp1VerifierCodeKeccak.map tx.wordText

section Rules

variable (req : BindingRequest)

/-- A mock override off a local chain, a target without code. -/
def openingRefusals : List String :=
  refuse (req.allowMockSp1 && !LOCAL_CHAIN_IDS.contains req.chainId)
    ("no override exists on chain " ++ toString req.chainId ++ ": a mock SP1 verifier is local-only") ++
  refuse (!req.target.hasCode) (tx.addressText req.target.address ++ " has no code")

/-- The target itself, and who can halt it and the current verifier. -/
def targetRefusals (signer : Address) : List String :=
  let t := req.target
  (if !t.genuineWrapper then
    [tx.addressText t.address ++ " is not a ZKMLDSAVerifier compiled from this tree: its runtime code is no recorded wrapper build's"]
  else refuse (!measuredCompletely t) (unmeasured tx t "the target")) ++
  refuse (t.halted.getD false)
    (tx.addressText t.address ++ " is HALTED: a halted wrapper is never a binding or rotation target") ++
  refuse (decide (t.haltPrincipal = some signer))
    ("the signer " ++ req.signer ++ " is " ++ tx.addressText t.address ++
      "'s halt principal: the halt principal never governs a consumer") ++
  refuse (req.current.any fun p => decide (p.haltPrincipal = some signer))
    ("the signer " ++ req.signer ++
      " can halt the current verifier: the halt principal never governs a consumer") ++
  match req.current with
  | some p => refuse (p.genuineWrapper && !measuredCompletely p) (unmeasured tx p "the current verifier")
  | none => []

/-- A field a fact records and the chain reports. -/
def fieldRefusal (r : VerifierProfile) (field : String) (recorded : Option Json)
    (live : Option String) : List String :=
  refuse (!agrees recorded live)
    ("registered wrapper " ++ tx.addressText r.address ++ ": the registry records " ++ field ++ " " ++
      text out recorded ++ ", but the chain reports " ++ shown live ++
      ": the registry or the RPC is wrong; refusing rather than guessing")

/-- A registered wrapper against the fact that registers it. -/
def factRefusals (r : VerifierProfile) (fact : Option Json) : List String :=
  let sp1Verifier := Json.get "sp1Verifier" fact
  fieldRefusal tx r "identity" (Json.get "identity" fact) (identityText tx r) ++
  fieldRefusal tx r "PROGRAM_VKEY" (Json.get "programVKey" fact) (vkeyText tx r) ++
  fieldRefusal tx r "SP1 verifier" (Json.get "address" sp1Verifier)
    (r.sp1Verifier.map tx.addressText) ++
  fieldRefusal tx r "SP1 verifier code" (Json.get "runtimeCodeKeccak" sp1Verifier) (codeText tx r) ++
  fieldRefusal tx r "halt principal" (Json.get "haltPrincipal" fact)
    (r.haltPrincipal.map tx.addressText) ++
  match r.wrapperBuild with
  | some build =>
      refuse (!isText (Json.get "wrapperBuild" fact) build)
        ("registered wrapper " ++ tx.addressText r.address ++ " runs build " ++ build ++
          ", not the build its registration records (" ++ text out (Json.get "wrapperBuild" fact) ++ ")")
  | none => []

/-- One registered wrapper against the registry. -/
def registeredRefusals (state : RegistryState) (r : VerifierProfile) : Option (List String) := do
  let chain := toString req.chainId
  let address := tx.addressText r.address
  let fact ← state.registration out chain address
  let recorded ← state.recordedHalted out chain address
  return (if !r.genuineWrapper then
      ["registered wrapper " ++ address ++ " is not a ZKMLDSAVerifier compiled from this tree"]
    else refuse (!measuredCompletely r) (unmeasured tx r "registered wrapper")) ++
    (match fact with
      | some fact => factRefusals tx r (some fact)
      | none => []) ++
    refuse (recorded && decide (r.halted = some false))
      ("the registry records " ++ address ++
        " HALTED but the chain reports it ACTIVE: the registry or the RPC is wrong; " ++
        "refusing rather than guessing") ++
    refuse (!recorded && decide (r.halted = some true))
      (address ++ " is HALTED on chain " ++ chain ++
        " but the registry does not record it: append its WRAPPER_HALTED " ++
        "fact (the registry is how every other chain learns of a halt) before binding here")

/-- The target's identity against every halt that is known. -/
def identityRefusals (state : RegistryState) : List String :=
  let t := req.target
  let address := tx.addressText t.address
  match t.identity with
  | none => []
  | some identity =>
      refuse req.targetIdentityRecordedHalted
        (address ++ " has the identity of a halted wrapper " ++ req.consumer ++ " recorded (" ++
          tx.wordText identity ++ ")") ++
      refuse ((req.current.any fun p => p.halted.getD false) &&
          decide (req.currentIdentity = some identity))
        (address ++ " is a fresh deployment of the halted identity " ++ tx.wordText identity) ++
      (req.registered.flatMap fun r =>
        refuse (r.halted.getD false && decide (r.identity = some identity) &&
            decide (r.address ≠ t.address))
          (address ++ " has the identity of registered wrapper " ++ tx.addressText r.address ++
            ", which is HALTED")) ++
      (state.haltsOfIdentity out (tx.wordText identity)).map fun h =>
        address ++ "'s identity " ++ tx.wordText identity ++
          " is recorded HALTED in the WalletWall registry (fact #" ++ text out h.seq ++ ": " ++
          h.address ++ " on chain " ++ h.chainId ++ ", " ++ h.reason ++
          "): a halted identity is never a binding target, on any chain"

/-- Registered wrappers of the target's identity that are active at another address. -/
def twins : List VerifierProfile :=
  req.registered.filter fun r =>
    decide (r.address ≠ req.target.address) && decide (r.identity = req.target.identity) &&
      decide (r.halted = some false)

def designated (t : VerifierProfile) (chainId : ℕ) (d : Designation) : Bool :=
  decide (codeText tx t =
    some ((d.sp1VerifierCodeKeccakByChain (toString chainId)).getD d.sp1VerifierCodeKeccak)) &&
  decide (vkeyText tx t = some d.programVKey)

/-- Registration, designation and pin. -/
def recordRefusals : List String :=
  let t := req.target
  let address := tx.addressText t.address
  refuse (!req.registered.any fun r => decide (r.address = t.address))
    (address ++ " is not in the WalletWall wrapper registry for chain " ++ toString req.chainId) ++
  refuse (!(twins req).isEmpty)
    (", ".intercalate ((twins req).map fun r => tx.addressText r.address) ++
      " is another ACTIVE registered wrapper of " ++ address ++ "'s identity: " ++
      "one halt call must reach every consumer") ++
  refuse (!req.designations.any (designated tx t req.chainId))
    (address ++ "'s identity (SP1 verifier code " ++ shown (codeText tx t) ++ ", PROGRAM_VKEY " ++
      shown (vkeyText tx t) ++ ") matches no designation (" ++
      ", ".intercalate (req.designations.map Designation.source) ++ "): a recovery identity needs a " ++
      "successor designation from the designation process") ++
  refuse (!LOCAL_CHAIN_IDS.contains req.chainId && t.genuineWrapper && (codeText tx t).isSome &&
      decide (codeText tx t ≠ t.pinnedSp1VerifierCodehash))
    (address ++ ": its SP1 verifier runs code " ++ shown (codeText tx t) ++
      ", not the code its build pins (" ++ shown t.pinnedSp1VerifierCodehash ++
      "): a wrapper whose constructor pin was bypassed is never bound")

/-- `bindingRefusals`; none where it throws. -/
def bindingRefusals : Option (List String) :=
  let t := req.target
  let opening := openingRefusals tx req
  let excluded := req.scope.excludedUntilRecoverable.find? fun e => e.consumer == req.consumer
  if excluded.isNone && !req.scope.applies.contains req.consumer then
    some (opening ++
      [req.consumer ++ " is not a consumer the halt's scope names; refusing to bind it"])
  else if !isOnSp1Path t then some opening
  else
    match excluded with
    | some e =>
        some (opening ++
          [req.consumer ++ " waits outside the halt for " ++ e.gate ++ " (interim " ++ e.interim ++
            ", authorized by " ++ e.authorizedBy ++ "): it may be bound to no part of the SP1 path" ++
            if isHaltable t then ", and a haltable wrapper would lock its funds" else ""])
    | none =>
        if !isHaltable t then
          some (opening ++
            [tx.addressText t.address ++
              " is on the SP1 path but not haltable: the halt would not reach " ++ req.consumer])
        else do
          let signer ← tx.addressOf req.signer
          let state ← registryState req.registry
          let registered ← req.registered.mapM (registeredRefusals tx req state)
          let before := opening ++ targetRefusals tx req signer ++ registered.flatten ++
            identityRefusals tx req state
          if req.allowMockSp1 && LOCAL_CHAIN_IDS.contains req.chainId then return before
          else return before ++ recordRefusals tx req

end Rules

/-! ## A rotation -/

def CONSUMER_BY_DOMAIN_NAME : List (String × String) :=
  [("WalletWallVault", "WalletWallVault"),
    ("WalletWallStablecoinVault", "StablecoinVaultSimulator"),
    ("WalletWallMultiSigVault", "WalletWallMultiSigVault")]

/-- What the gate reads from the repository. -/
structure Records where
  boundary : Bytes → Option ℕ
  builds : List Build
  registry : Json
  scope : HaltScope
  designations : List Designation

/-- `wrapperRegistryErrors`. -/
def wrapperRegistryErrors (out : Outside) (value : Json) : List String :=
  match value with
  | .arr _ => registryShapeErrors out value
  | .obj _ => registryShapeErrors out value
  | _ => ["the wrapper registry is not an object"]

/-- The registered wrappers of the chain, profiled live (`context`). -/
def registeredProfiles (records : Records) (c : Chain) : Option (List VerifierProfile) := do
  let state ← registryState records.registry
  (state.registeredOn (toString c.chainId)).mapM fun a =>
    ((Json.string a).bind tx.addressOf).map (profileVerifier records.boundary c records.builds)

/-- The request that `checkRotationBinding` makes; none where it throws before. -/
def rotationRequest (records : Records) (c : Chain) (consumer : Consumer) (newVerifier : Address)
    (signer : String) (allowMockSp1 : Bool) : Option BindingRequest :=
  if wrapperRegistryErrors out records.registry ≠ [] then none
  else do
    let registered ← registeredProfiles tx records c
    let name ← consumer.domainName.bind fun n => List.lookup n CONSUMER_BY_DOMAIN_NAME
    let profile := profileVerifier records.boundary c records.builds
    let target := profile newVerifier
    return {
      consumer := name
      target := target
      chainId := c.chainId
      signer := signer
      allowMockSp1 := allowMockSp1
      current := some (profile consumer.pqVerifier)
      currentIdentity :=
        if consumer.pqVerifierIdentity = 0 then none else some consumer.pqVerifierIdentity
      targetIdentityRecordedHalted := target.identity.any consumer.haltedVerifierIdentities
      scope := records.scope
      designations := records.designations
      registered := registered
      registry := records.registry }

/-- `checkRotationBinding`; none where it throws. -/
def checkRotationBinding (records : Records) (c : Chain) (consumer : Consumer)
    (newVerifier : Address) (signer : String) (allowMockSp1 : Bool) : Option BindingRequest := do
  let req ← rotationRequest tx records c consumer newVerifier signer allowMockSp1
  if bindingRefusals tx req = some [] then return req else none

end WalletWall.VerifierBinding

import WalletWall.Library.Json
import WalletWall.Model.AppendOnlyHistory

/-!
# The wrapper registry

Modelled from `scripts/lib/sp1-registry.ts`: the fact log of registered and halted SP1 wrappers,
the state it publishes (`registryState`), its own rules (`registryErrors`), and what a newer
version may do to an older one (`registryExtensionErrors`). Documents are JSON values as parsed;
`Outside` is what the module takes from elsewhere.
-/

set_option autoImplicit false

namespace WalletWall.WrapperRegistry

open Library AppendOnlyHistory

structure Outside where
  /-- `JSON.parse`; none where it throws. -/
  parse : String → Option Json
  numerals : Numerals
  /-- `getAddress` of ethers; none where it throws, which is where `isAddress` is false. -/
  getAddress : String → Option String
  /-- `identityOf` of the designations: a keccak256 of two words. -/
  identityOf : String → String → String

/-- A recorded wrapper build, as far as it is read. -/
structure WrapperBuild where
  id : String
  sp1VerifierCodehash : String

/-- A designation, as far as it is read. -/
structure ProgramDesignation where
  id : String
  programVKey : String
  identity : String
  runtimeCodeKeccak : String

def REGISTRY_REL : String := "evidence/zk/sp1-td2/wrapper-registry.json"

def REGISTRY_SCHEMA : String := "walletwall.sp1-wrapper-registry.v2"

def REGISTRY_V1_SCHEMA : String := "walletwall.sp1-wrapper-registry.v1"

def MIGRATED_FROM : Json :=
  .obj (.ofList [("schema", .str REGISTRY_V1_SCHEMA), ("entries", .num (.finite 0))])

def HALT_REASONS : List String :=
  ["VERIFIER_SOUNDNESS", "PROGRAM_SOUNDNESS", "WRAPPER_DEFECT", "PRECOMPILE_CHANGE",
    "HALT_KEY_COMPROMISE", "OTHER"]

def ZeroAddress : String := "0x0000000000000000000000000000000000000000"

structure HaltRecord where
  chainId : String
  address : String
  seq : Option Json
  reason : String
  deriving DecidableEq

variable (out : Outside)

/-! ## Values -/

/-- `x === s`, for a string `s`. -/
def isText (x : Option Json) (s : String) : Bool := decide (Json.string x = some s)

/-- `/^0x[0-9a-f]{64}$/`. -/
def isWordText (s : String) : Bool :=
  match s.toList with
  | '0' :: 'x' :: digits =>
      digits.length == 64 &&
        digits.all fun c => c.isDigit || (decide ('a' ≤ c) && decide (c ≤ 'f'))
  | _ => false

def isWord (x : Option Json) : Bool := (Json.string x).any isWordText

def isChecksummed (x : Option Json) : Bool :=
  (Json.string x).any fun s => decide (out.getAddress s = some s)

def isBlock : Option Json → Bool
  | some (.num (.finite q)) => decide (q.den = 1) && decide (0 ≤ q)
  | _ => false

/-- `/^[1-9][0-9]*$/`. -/
def isChainId (s : String) : Bool :=
  match s.toList with
  | c :: digits => c.isDigit && c != '0' && digits.all Char.isDigit
  | [] => false

/-- `String(x)`, and what a template writes for it. -/
def text (x : Option Json) : String := Json.text out.numerals x

/-- `a > b`, of `Number`s. -/
def exceeds (a b : Option Json) : Bool :=
  lessThan (Json.toNumber out.numerals b) (Json.toNumber out.numerals a)

/-! ## What the record says -/

/-- The facts of a document. -/
def factsOf (doc : Json) : List Json := (Json.elements (Json.get "facts" (some doc))).getD []

def isKind (kind : String) (f : Json) : Bool := isText (Json.get "kind" (some f)) kind

/-- A fact's chain and address are the ones asked for. -/
def isOn (chainId address : String) (f : Json) : Bool :=
  isText (Json.get "chainId" (some f)) chainId && isText (Json.get "address" (some f)) address

structure RegistryState where
  registrations : List Json
  halts : List Json

/-- `registryState`; none where a fact is null and the filters throw. -/
def registryState (doc : Json) : Option RegistryState :=
  if .null ∈ factsOf doc then none
  else
    some ⟨(factsOf doc).filter (isKind "WRAPPER_REGISTERED"),
      (factsOf doc).filter (isKind "WRAPPER_HALTED")⟩

namespace RegistryState

variable (s : RegistryState)

def registeredOn (chainId : String) : List (Option Json) :=
  (s.registrations.filter fun f => isText (Json.get "chainId" (some f)) chainId).map
    fun f => Json.get "address" (some f)

/-- `find` with a predicate that reads `getAddress` on the chain's facts only. -/
def registration (chainId address : String) : Option (Option Json) :=
  s.registrations.findM? fun f =>
    if isText (Json.get "chainId" (some f)) chainId then
      (out.getAddress address).map (isText (Json.get "address" (some f)))
    else some false

def recordedHalted (chainId address : String) : Option Bool :=
  s.halts.anyM fun f =>
    if isText (Json.get "chainId" (some f)) chainId then
      (out.getAddress address).map (isText (Json.get "address" (some f)))
    else some false

/-- The record of a halt fact. -/
def record (f : Json) : HaltRecord :=
  ⟨(Json.string (Json.get "chainId" (some f))).getD "",
    (Json.string (Json.get "address" (some f))).getD "",
    Json.get "seq" (some f), text out (Json.get "reason" (some f))⟩

def haltsOfIdentity (identity : String) : List HaltRecord :=
  (s.halts.filter fun f => isText (Json.get "identity" (some f)) identity).map (record out)

end RegistryState

/-! ## The rules of a document -/

/-- `if (c) errors.push(e)`. -/
def complain (c : Bool) (e : String) : List String := if c then [e] else []

/-- The key of an identity in a map: a value by itself, an array or object by the fact it is of. -/
inductive IdentityKey where
  | value (v : Option Json)
  | reference (fact : ℕ)
  deriving DecidableEq

def identityKey (i : ℕ) : Option Json → IdentityKey
  | some (.arr _) => .reference i
  | some (.obj _) => .reference i
  | v => .value v

/-- The maps of the pass. A registration is kept with its position. -/
structure Pass where
  registered : String → Option (ℕ × Json)
  haltedIdentities : IdentityKey → List HaltRecord

def Pass.empty : Pass := ⟨fun _ => none, fun _ => []⟩

section Registration

variable (builds : Option (List WrapperBuild)) (designations : Option (List ProgramDesignation))
variable (pass : Pass) (at' key chainId : String) (i : ℕ) (f : Json)

/-- The errors of a registration, in order. -/
def registrationErrors : List String :=
  let field := fun name => Json.get name (some f)
  let wrapperBuild := field "wrapperBuild"
  let designation := field "designation"
  let build := builds.bind fun bs => bs.find? fun b => isText wrapperBuild b.id
  let d := designations.bind fun ds => ds.find? fun x => isText designation x.id
  let sp1Verifier := field "sp1Verifier"
  let code := Json.get "runtimeCodeKeccak" sp1Verifier
  let vkey := field "programVKey"
  let identity := field "identity"
  let deployment := field "deployment"
  let observedBlock := Json.get "block" (field "observedAt")
  let deployedBlock := Json.get "block" deployment
  let replaces := field "replaces"
  let replaced := Json.get "address" replaces
  complain (pass.registered key).isSome (at' ++ ": " ++ key ++ " is already registered") ++
  complain ((Json.string wrapperBuild).isNone || (Json.string designation).isNone)
    (at' ++ ": a registration names its wrapper build and its designation") ++
  complain (builds.isSome && build.isNone)
    (at' ++ ": wrapper build " ++ text out wrapperBuild ++ " is not a recorded build") ++
  complain (designations.isSome && d.isNone)
    (at' ++ ": designation " ++ text out designation ++ " is not a recorded designation") ++
  (match isWord code && isWord vkey, Json.string code, Json.string vkey with
    | true, some code, some vkey =>
        complain (!isText identity (out.identityOf code vkey))
          (at' ++ ": its identity is not keccak256(abi.encode(SP1 verifier code hash, PROGRAM_VKEY))")
    | _, _, _ =>
        [at' ++ ": the SP1 verifier's runtime code hash and PROGRAM_VKEY must be 32-byte words"]) ++
  (match d with
    | none => []
    | some d =>
        complain (!isText vkey d.programVKey || !isText identity d.identity)
          (at' ++ ": its vkey and identity are not designation " ++ d.id ++ "'s") ++
        complain (!isText code d.runtimeCodeKeccak)
          (at' ++ ": its SP1 verifier code is not designation " ++ d.id ++ "'s verifier")) ++
  (match build with
    | none => []
    | some build =>
        complain (!isText code build.sp1VerifierCodehash)
          (at' ++ ": wrapper build " ++ build.id ++ " pins another SP1 verifier")) ++
  complain (!isChecksummed out (Json.get "address" sp1Verifier))
    (at' ++ ": the SP1 verifier address must be checksummed") ++
  complain (!isChecksummed out (field "haltPrincipal") || isText (field "haltPrincipal") ZeroAddress)
    (at' ++ ": the halt principal must be a non-zero checksummed address") ++
  (if !isWord (Json.get "txHash" deployment) || !isBlock deployedBlock ||
      !isChecksummed out (Json.get "deployer" deployment) then
    [at' ++ ": the deployment needs its transaction, block and deployer"]
  else
    complain (isBlock observedBlock && exceeds out deployedBlock observedBlock)
      (at' ++ ": observed before its deployment (block " ++ text out observedBlock ++ " < " ++
        text out deployedBlock ++ ")")) ++
  (match pass.haltedIdentities (identityKey i identity) with
    | [] => []
    | prior :: _ =>
        [at' ++ ": identity " ++ text out identity ++ " was halted (fact #" ++ text out prior.seq ++
          " on chain " ++ prior.chainId ++ "); a halted identity is never registered again, on any chain"]) ++
  (match replaces with
    | none => []
    | some .null => []
    | some _ =>
        complain (pass.registered (chainId ++ ":" ++ text out replaced)).isNone
          (at' ++ ": replaces names no earlier registered wrapper on chain " ++ chainId))

/-- The errors of a halt of a registered wrapper, in order. -/
def haltErrors (address : String) (j : ℕ) (registration : Json) : List String :=
  let field := fun name => Json.get name (some f)
  let reason := field "reason"
  let halt := field "halt"
  let haltBlock := Json.get "block" halt
  let observedBlock := Json.get "block" (field "observedAt")
  let deployedBlock := Json.get "block" (Json.get "deployment" (some registration))
  let registeredIdentity := Json.get "identity" (some registration)
  complain (!Json.identical (field "identity") registeredIdentity)
    (at' ++ ": the halted identity is not the registered wrapper's") ++
  complain (!HALT_REASONS.contains (text out reason))
    (at' ++ ": the halt reason must be one of " ++ ", ".intercalate HALT_REASONS) ++
  (if !isWord (Json.get "txHash" halt) || !isBlock haltBlock then
    [at' ++ ": the halt needs its transaction and block"]
  else if exceeds out deployedBlock haltBlock then
    [at' ++ ": the halt precedes the wrapper's deployment"]
  else
    complain (isBlock observedBlock && exceeds out haltBlock observedBlock)
      (at' ++ ": observed before the halt (block " ++ text out observedBlock ++ " < " ++
        text out haltBlock ++ ")")) ++
  complain ((pass.haltedIdentities (identityKey j registeredIdentity)).any fun h =>
      h.chainId == chainId && h.address == address)
    (at' ++ ": " ++ key ++ " is recorded halted twice")

/-- The pass over one fact: its errors, and the maps after it. -/
def checkFact : List String × Pass :=
  let field := fun name => Json.get name (some f)
  let at' := "registry fact #" ++ toString (i + 1)
  let numbering := complain (decide (field "seq" ≠ some (.num (.finite ((i : ℚ) + 1)))))
    (at' ++ ": seq must be " ++ toString (i + 1) ++ " (facts are numbered in order, from 1)")
  match (Json.string (field "chainId")).filter isChainId with
  | none => (numbering ++ [at' ++ ": the chain id must be a decimal string"], pass)
  | some chainId =>
      match (Json.string (field "address")).filter fun s => decide (out.getAddress s = some s) with
      | none => (numbering ++ [at' ++ ": the wrapper address must be a checksummed address"], pass)
      | some address =>
          let observed := complain (!isBlock (Json.get "block" (field "observedAt")) ||
              !isWord (Json.get "blockHash" (field "observedAt")))
            (at' ++ ": observedAt needs the block and its hash")
          let key := chainId ++ ":" ++ address
          if isKind "WRAPPER_REGISTERED" f then
            (numbering ++ observed ++ registrationErrors out builds designations pass at' key chainId i f,
              { pass with registered := Function.update pass.registered key (some (i, f)) })
          else if isKind "WRAPPER_HALTED" f then
            match pass.registered key with
            | none => (numbering ++ observed ++ [at' ++ ": " ++ key ++ " is not registered before its halt"],
                pass)
            | some (j, registration) =>
                let k := identityKey j (Json.get "identity" (some registration))
                let record : HaltRecord :=
                  ⟨chainId, address, field "seq", text out (field "reason")⟩
                (numbering ++ observed ++ haltErrors out pass at' key chainId f address j registration,
                  { pass with
                    haltedIdentities :=
                      Function.update pass.haltedIdentities k (pass.haltedIdentities k ++ [record]) })
          else
            (numbering ++ observed ++ [at' ++ ": kind must be WRAPPER_REGISTERED or WRAPPER_HALTED"], pass)

/-- The pass over the facts from number `i + 1` on. -/
def checkFacts (pass : Pass) (i : ℕ) : List Json → List String
  | [] => []
  | f :: facts =>
      let r := checkFact out builds designations pass i f
      r.1 ++ checkFacts r.2 (i + 1) facts

def registryErrors (doc : Json) : List String :=
  complain (!isText (Json.get "schema" (some doc)) REGISTRY_SCHEMA)
    ("the registry's schema must be " ++ REGISTRY_SCHEMA) ++
  complain (!Json.same (Json.get "migratedFrom" (some doc)) (some MIGRATED_FROM))
    "migratedFrom must record SP1-TD2's empty v1 registry" ++
  match Json.elements (Json.get "facts" (some doc)) with
  | none => ["the registry's facts must be a list"]
  | some facts => checkFacts out builds designations .empty 0 facts

end Registration

def registryShapeErrors (doc : Json) : List String := registryErrors out none none doc

/-! ## Append-only -/

def isPrefix (older newer : Option Json) : Bool :=
  match Json.elements older, Json.elements newer with
  | some older, some newer =>
      decide (older.length ≤ newer.length) &&
        (older.zip newer).all fun pair => Json.same (some pair.1) (some pair.2)
  | _, _ => false

def registryExtensionErrors : ExtensionRule
  | none, none => []
  | some _, none => ["the registry was deleted; a published registry is never withdrawn"]
  | older, some newer =>
      match out.parse newer with
      | none => ["the registry is not JSON"]
      | some next =>
          let nextIs := isText (Json.get "schema" (some next))
          match older with
          | none =>
              if nextIs REGISTRY_V1_SCHEMA then []
              else ["the registry's first version must be a v1 registry (SP1-TD2's list): a history that starts at the fact log skips the only migration allowed"]
          | some older =>
              match out.parse older with
              | none => ["the earlier registry is not JSON, so no extension can be proved"]
              | some prev =>
                  let prevIs := isText (Json.get "schema" (some prev))
                  if prevIs REGISTRY_V1_SCHEMA then
                    if nextIs REGISTRY_V1_SCHEMA then
                      complain (!isPrefix (Json.get "entries" (some prev)) (Json.get "entries" (some next)))
                        "it removed or rewrote a published v1 entry"
                    else if nextIs REGISTRY_SCHEMA then
                      complain (!(decide (Json.elements (Json.get "entries" (some prev)) = some []) &&
                          Json.same (Json.get "migratedFrom" (some next)) (some MIGRATED_FROM)))
                        "it migrated a non-empty v1 registry: only SP1-TD2's empty list may become the fact log"
                    else ["it changed the schema to an unknown one"]
                  else if prevIs REGISTRY_SCHEMA then
                    if !nextIs REGISTRY_SCHEMA then ["it changed the schema away from the v2 fact log"]
                    else
                      complain (!Json.same (Json.get "migratedFrom" (some prev))
                          (Json.get "migratedFrom" (some next))) "it rewrote migratedFrom" ++
                      complain (!isPrefix (Json.get "facts" (some prev)) (Json.get "facts" (some next)))
                        "it removed or rewrote a published fact (facts may only be appended)"
                  else ["the earlier registry has an unknown schema, so no extension can be proved"]

end WalletWall.WrapperRegistry

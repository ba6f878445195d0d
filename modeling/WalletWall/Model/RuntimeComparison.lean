import WalletWall.Model.MetadataBoundary

/-!
# The runtime comparison

`validateImmutableAuthority` and `deriveFactsFromEvidence` of
`scripts/lib/reproducibility-evidence.ts`, with what they use: the live runtime of a contract is held
against the runtime a build of it gave. The bytes of immutable values and of the compiler's metadata
are left out of the comparison, the first where the build has the authority to say where they are,
the second where both sides decode to one region. Immutable values are then derived again from what
is public about the deployment.

`Ethers` is what is used of that package: its functions answer hex strings, here the bytes these
spell. An object of ranges is given by its entries, in the order of `Object.entries`. Sums of two
numbers are not rounded: where that would change one, it is beyond every runtime's length.
-/

set_option autoImplicit false

namespace WalletWall.ReproducibilityEvidence

open Library

structure Ethers where
  keccak256 : List UInt8 → List UInt8
  /-- `toUtf8Bytes`, which throws on half a surrogate pair. -/
  toUtf8Bytes : JsString → Option (List UInt8)
  /-- `zeroPadValue(data, 32)`, which throws on what is no data or longer. -/
  zeroPadValue : JsString → Option (List UInt8)
  /-- `AbiCoder.encode` of three words, a number and an address. -/
  abiEncode : List UInt8 → List UInt8 → List UInt8 → ℕ → JsString → Option (List UInt8)
  /-- `toLowerCase` of a text that is not ASCII alone. -/
  lowerCase : JsString → JsString

def lowerUnit (u : UInt16) : UInt16 := if 0x41 ≤ u ∧ u ≤ 0x5a then u + 0x20 else u

def isAsciiText (s : JsString) : Bool := s.all fun u => decide (u < 0x80)

/-- `toLowerCase`. -/
def toLowerCase (ethers : Ethers) (s : JsString) : JsString :=
  if isAsciiText s then s.map lowerUnit else ethers.lowerCase s

/-! ## Immutable values -/

/-- `encodeShortString`. -/
def encodeShortString (value : JsString) : Option (List UInt8) :=
  let content := Library.bytes value
  if 31 < content.length then none
  else some (content ++ List.replicate (31 - content.length) 0 ++ [UInt8.ofNat content.length])

inductive ImmutableDerivation where
  | constructorArgument (value : JsString)
  | selfAddress
  | chainId
  | keccak256Utf8 (value : JsString)
  | shortString (value : JsString)
  | eip712DomainSeparator (name version : JsString)

structure ImmutableIdentity where
  astId : JsString
  name : JsString
  derivation : ImmutableDerivation
  expectedValueHex : JsString

structure DerivationContext where
  deployedAddress : JsString
  chainId : ℕ

/-- `"0x" + BigInt(n).toString(16)`. -/
def hexQuantity (n : ℕ) : JsString :=
  0x30 :: 0x78 :: (Nat.toDigits 16 n).map fun c => UInt16.ofNat c.toNat

def EIP712_DOMAIN_TYPE : JsString :=
  js "EIP712Domain(string name,string version,uint256 chainId,address verifyingContract)"

/-- `deriveImmutableExpectedBytes`: the bytes of the answer, nothing where it throws. -/
def deriveImmutableExpectedBytes (ethers : Ethers) (derivation : ImmutableDerivation)
    (ctx : DerivationContext) : Option (List UInt8) :=
  match derivation with
  | .constructorArgument value => ethers.zeroPadValue (toLowerCase ethers value)
  | .selfAddress => ethers.zeroPadValue (toLowerCase ethers ctx.deployedAddress)
  | .chainId => ethers.zeroPadValue (hexQuantity ctx.chainId)
  | .keccak256Utf8 value => (ethers.toUtf8Bytes value).map ethers.keccak256
  | .shortString value => encodeShortString value
  | .eip712DomainSeparator name version => do
      let typeHash ← (ethers.toUtf8Bytes EIP712_DOMAIN_TYPE).map ethers.keccak256
      let hashedName ← (ethers.toUtf8Bytes name).map ethers.keccak256
      let hashedVersion ← (ethers.toUtf8Bytes version).map ethers.keccak256
      let encoded ←
        ethers.abiEncode typeHash hashedName hashedVersion ctx.chainId ctx.deployedAddress
      some (ethers.keccak256 encoded)

/-! ## The evidence -/

structure ByteRange where
  start : ℚ
  length : ℚ

/-- An object of ranges: a property of each name. -/
structure References where
  entries : List (JsString × List ByteRange)
  nodup : (entries.map Prod.fst).Nodup

structure BuildCapture where
  deployedBytecodeObject : JsString
  immutableReferences : References
  /-- The AST ids of the declarations. -/
  immutableAstDeclarations : List JsString

structure LiveRuntimeCapture where
  address : JsString
  chainId : ℕ
  runtimeBytecode : JsString

structure EvidenceBundle where
  liveRuntime : LiveRuntimeCapture
  deploymentCommitBuild : BuildCapture
  publicHeadBuild : BuildCapture
  immutableIdentities : Option (List ImmutableIdentity)

/-- A range and the AST id it is of. -/
structure ImmutableRange extends ByteRange where
  astId : JsString

/-- `flattenImmutableRanges`. -/
def flattenImmutableRanges (refs : List (JsString × List ByteRange)) : List ImmutableRange :=
  refs.flatMap fun entry => entry.2.map fun r => { r with astId := entry.1 }

/-- `inAnyRange`. -/
def inAnyRange (offset : ℕ) (ranges : List ByteRange) : Bool :=
  ranges.any fun r => decide (r.start ≤ offset ∧ offset < r.start + r.length)

/-! ## Authority -/

inductive AuthorityError where
  | duplicateIdentities
  | undeclared (astId : JsString)
  | notInAst (astId : JsString)
  | unreferenced (astId : JsString)
  | noIdentities
  | badStart (r : ImmutableRange)
  | badLength (r : ImmutableRange)
  | exceeds (r : ImmutableRange) (localLen : ℕ)
  | entersMetadata (r : ImmutableRange) (regionStart : ℕ)
  | noReferences (astId : JsString)
  | overlap (prev cur : ImmutableRange)

/-- A number in a message. -/
def numberIn (q : ℚ) : JsString := numberText (.finite q)

/-- A range in a message. -/
def rangeIn (r : ByteRange) : JsString :=
  js "[" ++ numberIn r.start ++ js ", " ++ numberIn (r.start + r.length) ++ js ")"

def AuthorityError.message : AuthorityError → JsString
  | duplicateIdentities => js "immutableIdentities contains duplicate astId entries"
  | undeclared id => js "immutableReferences declares AST id " ++ id ++
      js " with no corresponding immutableIdentities entry — an undeclared exclusion range has no authority"
  | notInAst id => js "immutableReferences declares AST id " ++ id ++
      js ", but no VariableDeclaration with that id and mutability \"immutable\" was found anywhere in deploymentCommitBuild.immutableAstDeclarations (the build's own AST) — this exclusion range does not correspond to anything the compiler actually emitted as immutable"
  | unreferenced id => js "immutableIdentities declares AST id " ++ id ++
      js ", but deploymentCommitBuild.immutableReferences has no range for it"
  | noIdentities =>
      js "no immutableIdentities declared, but deploymentCommitBuild.immutableReferences is non-empty"
  | badStart r => js "immutableReferences[" ++ r.astId ++
      js "]: start must be a non-negative integer (got " ++ numberIn r.start ++ js ")"
  | badLength r => js "immutableReferences[" ++ r.astId ++
      js "]: length must be an integer in [1, 32] (got " ++ numberIn r.length ++ js ")"
  | exceeds r localLen => js "immutableReferences[" ++ r.astId ++ js "]: range " ++
      rangeIn r.toByteRange ++ js " exceeds bytecode length " ++ numeral localLen
  | entersMetadata r regionStart => js "immutableReferences[" ++ r.astId ++ js "]: range " ++
      rangeIn r.toByteRange ++ js " enters the decoded metadata region (starts at " ++
      numeral regionStart ++ js ") — an immutable cannot legitimately overlap compiler metadata"
  | noReferences id => js "immutableReferences[" ++ id ++ js "]: has zero physical references"
  | overlap prev cur => js "immutable ranges overlap: " ++ prev.astId ++
      rangeIn prev.toByteRange ++ js " and " ++ cur.astId ++ rangeIn cur.toByteRange

/-- An error where a condition holds. -/
def errorIf (c : Prop) [Decidable c] (e : AuthorityError) : List AuthorityError :=
  if c then [e] else []

/-- The checks of one range. -/
def rangeErrors (localLen : ℕ) (localBoundary : Except BoundaryError MetadataBoundary)
    (r : ImmutableRange) : List AuthorityError :=
  errorIf (¬ (r.start.isInt = true ∧ 0 ≤ r.start)) (.badStart r) ++
  errorIf (¬ (r.length.isInt = true ∧ 1 ≤ r.length ∧ r.length ≤ 32)) (.badLength r) ++
  errorIf (localLen < r.start + r.length) (.exceeds r localLen) ++
  match localBoundary with
  | .ok b => errorIf (b.regionStart < r.start + r.length) (.entersMetadata r b.regionStart)
  | .error _ => []

/-- The ranges that begin before the one before them ends. -/
def overlapErrors : List ImmutableRange → List AuthorityError
  | prev :: cur :: rest =>
      errorIf (cur.start < prev.start + prev.length) (.overlap prev cur) ++
        overlapErrors (cur :: rest)
  | _ => []

/-- `validateImmutableAuthority`: the errors, none where it is `ok`. Nothing where it throws. -/
def validateImmutableAuthority (evidence : EvidenceBundle) : Option (List AuthorityError) := do
  let refs := evidence.deploymentCommitBuild.immutableReferences.entries
  let declaredIds := (evidence.immutableIdentities.getD []).map ImmutableIdentity.astId
  let declaredSet := declaredIds.eraseDups
  let referencedSet := refs.map Prod.fst
  let astDeclaredSet := evidence.deploymentCommitBuild.immutableAstDeclarations
  let localBuffer ← hexToBuffer evidence.deploymentCommitBuild.deployedBytecodeObject
  let localBoundary := boundaryOf localBuffer
  let allRanges := flattenImmutableRanges refs
  some (errorIf (declaredSet.length ≠ declaredIds.length) .duplicateIdentities ++
    (referencedSet.flatMap fun id =>
      errorIf (declaredSet.contains id = false) (.undeclared id) ++
      errorIf (astDeclaredSet.contains id = false) (.notInAst id)) ++
    (declaredSet.flatMap fun id =>
      errorIf (referencedSet.contains id = false) (.unreferenced id)) ++
    errorIf (declaredSet = [] ∧ referencedSet ≠ []) .noIdentities ++
    allRanges.flatMap (rangeErrors localBuffer.length localBoundary) ++
    (refs.flatMap fun entry => errorIf (entry.2 = []) (.noReferences entry.1)) ++
    overlapErrors (allRanges.mergeSort fun a b => decide (a.start ≤ b.start)))

/-! ## The comparison -/

/-- `buf.fill(0, start, end)`; nothing where it throws a range error. -/
def fill (buf : List UInt8) (start stop : ℚ) : Option (List UInt8) :=
  if start < 0 ∨ stop < 0 ∨ buf.length < stop then none
  else some (buf.mapIdx fun i b => if ⌊start⌋ ≤ (i : ℤ) ∧ (i : ℤ) < ⌊stop⌋ then 0 else b)

/-- `maskRanges`. -/
def maskRanges (buf : List UInt8) (ranges : List ByteRange) : Option (List UInt8) :=
  ranges.foldlM (fun masked r => fill masked r.start (r.start + r.length)) buf

/-- A relative index of `subarray`: truncated, from the end where it is negative. -/
def relativeIndex (length : ℕ) (q : ℚ) : ℕ :=
  let k : ℤ := if 0 ≤ q then ⌊q⌋ else ⌈q⌉
  if k < 0 then (length + k).toNat else min k.toNat length

/-- `buf.subarray(r.start, r.start + r.length)`. -/
def rangeBytes (buf : List UInt8) (r : ByteRange) : List UInt8 :=
  subarray buf (relativeIndex buf.length r.start)
    (relativeIndex buf.length (r.start + r.length))

structure ImmutableResult where
  astId : JsString
  name : JsString
  expectedValueHex : JsString
  observedValueHex : Option JsString
  physicalOccurrencesAgree : Bool
  matched : Bool

structure DerivedFacts where
  observedRuntimeBytes : ℕ
  reportedCommitRuntimeBytes : ℕ
  publicHeadRuntimeBytes : ℕ
  liveMetadataBoundary : Except BoundaryError MetadataBoundary
  localMetadataBoundary : Except BoundaryError MetadataBoundary
  metadataBoundariesAgree : Bool
  rawDiffOffsets : List ℕ
  metadataTrailerBytesExcluded : ℕ
  executableBytecodeMatch : Bool
  metadataHashMatch : Bool
  normalizedLiveHash : JsString
  normalizedLocalHash : JsString
  normalizedBytecodeHash : JsString
  immutableAuthority : List AuthorityError
  immutableResults : List ImmutableResult
  immutableValuesIndependentlyVerified : Option Bool

/-- The boundary where there is one. -/
def accepted : Except BoundaryError MetadataBoundary → Option MetadataBoundary
  | .ok b => some b
  | .error _ => none

/-- Both sides decode to one region. -/
def boundariesAgree (live reported : Except BoundaryError MetadataBoundary) : Bool :=
  match accepted live, accepted reported with
  | some b, some b' => b.regionStart == b'.regionStart && b.regionSize == b'.regionSize
  | _, _ => false

/-- The offsets at which two buffers of one length differ. -/
def diffOffsets (live reported : List UInt8) : List ℕ :=
  if live.length = reported.length then
    (List.range live.length).filter fun i => live[i]? != reported[i]?
  else []

/-- `maskRangesFor`. -/
def maskRangesFor (agree : Bool) (authorizedRanges : List ByteRange)
    (boundary : Except BoundaryError MetadataBoundary) : List ByteRange :=
  authorizedRanges ++ match accepted boundary with
    | some b => if agree then [⟨b.regionStart, b.regionSize⟩] else []
    | none => []

/-- `liveMasked`: a runtime of another length is not masked. -/
def maskLive (live reported : List UInt8) (ranges : List ByteRange) : Option (List UInt8) :=
  if live.length = reported.length then maskRanges live ranges else some live

/-- The result of one identity. -/
def immutableResult (ethers : Ethers) (refs : List (JsString × List ByteRange))
    (live : List UInt8) (context : DerivationContext) (identity : ImmutableIdentity) :
    Option ImmutableResult :=
  match refs.lookup identity.astId with
  | none | some [] => some {
      astId := identity.astId
      name := identity.name
      expectedValueHex := identity.expectedValueHex
      observedValueHex := none
      physicalOccurrencesAgree := false
      matched := false }
  | some (r :: rest) => do
      let observed := bufferToHex (rangeBytes live r)
      let physicalOccurrencesAgree := (r :: rest).all fun r' =>
        toLowerCase ethers (bufferToHex (rangeBytes live r')) == toLowerCase ethers observed
      let derivedExpected ←
        (deriveImmutableExpectedBytes ethers identity.derivation context).map bufferToHex
      let expectedMatchesPinned :=
        toLowerCase ethers derivedExpected == toLowerCase ethers identity.expectedValueHex
      some {
        astId := identity.astId
        name := identity.name
        expectedValueHex := derivedExpected
        observedValueHex := if physicalOccurrencesAgree then some observed else none
        physicalOccurrencesAgree := physicalOccurrencesAgree
        matched := physicalOccurrencesAgree && expectedMatchesPinned &&
          toLowerCase ethers observed == toLowerCase ethers derivedExpected }

/-- `deriveFactsFromEvidence`; nothing where it throws. -/
def deriveFactsFromEvidence (ethers : Ethers) (evidence : EvidenceBundle) :
    Option DerivedFacts := do
  let live ← hexToBuffer evidence.liveRuntime.runtimeBytecode
  let reported ← hexToBuffer evidence.deploymentCommitBuild.deployedBytecodeObject
  let head ← hexToBuffer evidence.publicHeadBuild.deployedBytecodeObject
  let liveMetadataBoundary := boundaryOf live
  let localMetadataBoundary := boundaryOf reported
  let agree := boundariesAgree liveMetadataBoundary localMetadataBoundary
  let immutableAuthority ← validateImmutableAuthority evidence
  let rawRefs := evidence.deploymentCommitBuild.immutableReferences.entries
  let identities := evidence.immutableIdentities.getD []
  let authorizedAstIds := if immutableAuthority.isEmpty then rawRefs.map Prod.fst
    else identities.map ImmutableIdentity.astId
  let authorizedRanges := (flattenImmutableRanges
    (rawRefs.filter fun entry => authorizedAstIds.contains entry.1)).map
      ImmutableRange.toByteRange
  let rawDiffOffsets := diffOffsets live reported
  let inMetadata := fun offset : ℕ => match accepted liveMetadataBoundary with
    | some b => agree && decide (b.regionStart ≤ offset)
    | none => false
  let excluded := rawDiffOffsets.filter fun offset =>
    inMetadata offset && !inAnyRange offset authorizedRanges
  let allDiffsAccountedFor := live.length == reported.length &&
    rawDiffOffsets.all fun offset => inAnyRange offset authorizedRanges || inMetadata offset
  let liveMasked ← maskLive live reported
    (maskRangesFor agree authorizedRanges liveMetadataBoundary)
  let localMasked ← maskRanges reported
    (maskRangesFor agree authorizedRanges localMetadataBoundary)
  let normalizedLiveHash := bufferToHex (ethers.keccak256 liveMasked)
  let normalizedLocalHash := bufferToHex (ethers.keccak256 localMasked)
  let normalizedBuffersEqual := live.length == reported.length && liveMasked == localMasked
  let context := ⟨evidence.liveRuntime.address, evidence.liveRuntime.chainId⟩
  let immutableResults ← identities.mapM (immutableResult ethers rawRefs live context)
  some {
    observedRuntimeBytes := live.length
    reportedCommitRuntimeBytes := reported.length
    publicHeadRuntimeBytes := head.length
    liveMetadataBoundary := liveMetadataBoundary
    localMetadataBoundary := localMetadataBoundary
    metadataBoundariesAgree := agree
    rawDiffOffsets := rawDiffOffsets
    metadataTrailerBytesExcluded := excluded.length
    executableBytecodeMatch := immutableAuthority.isEmpty && allDiffsAccountedFor &&
      normalizedBuffersEqual && normalizedLiveHash == normalizedLocalHash
    metadataHashMatch := match accepted liveMetadataBoundary, accepted localMetadataBoundary with
      | some b, some b' => agree && live.length == reported.length &&
          live.drop b.regionStart == reported.drop b'.regionStart
      | _, _ => false
    normalizedLiveHash := normalizedLiveHash
    normalizedLocalHash := normalizedLocalHash
    normalizedBytecodeHash := normalizedLocalHash
    immutableAuthority := immutableAuthority
    immutableResults := immutableResults
    immutableValuesIndependentlyVerified :=
      if identities = [] then none
      else some (immutableAuthority.isEmpty &&
        immutableResults.all ImmutableResult.matched) }

end WalletWall.ReproducibilityEvidence

import WalletWall.Library.StableSort
import WalletWall.Model.RuntimeComparison

/-!
# Covered content

`canonicalCoveredContentDigest` and `verifyCoveredContentAgainstHead` of
`scripts/lib/reproducibility-evidence.ts`: whether the files a capture covers are at the current HEAD
what the capture recorded. An object of digests is given by its properties in the order they were
set. `Git` is what `runGit` answers for some arguments, nothing where git fails.
-/

set_option autoImplicit false

namespace WalletWall.ReproducibilityEvidence

open Library Library.JsObjects

/-- `path.split("\\").join("/")`. -/
def slashed (path : JsString) : JsString := path.map fun u => if u = 0x5c then 0x2f else u

/-- A path and its digest as they are committed to. -/
def canonicalPair (ethers : Ethers) (entry : JsString × JsString) : JsString × JsString :=
  (slashed entry.1, toLowerCase ethers entry.2)

/-- `JSON.stringify` of a pair. -/
def stringifyPair (pair : JsString × JsString) : JsString :=
  0x5b :: (quote pair.1 ++ 0x2c :: (quote pair.2 ++ [0x5d]))

/-- `JSON.stringify` of the pairs. -/
def stringifyPairs (pairs : List (JsString × JsString)) : JsString :=
  0x5b :: ([0x2c].intercalate (pairs.map stringifyPair) ++ [0x5d])

/-- The pairs of a commitment, in the order of their paths. -/
def canonicalPairs (ethers : Ethers) (sourceDigests : List (JsString × JsString)) :
    List (JsString × JsString) :=
  ((objectEntries sourceDigests).map (canonicalPair ethers)).mergeSort
    fun a b => atMost a.1 b.1

/-- `canonicalCoveredContentDigest`. -/
def canonicalCoveredContentDigest (ethers : Ethers) (sourceDigests : List (JsString × JsString)) :
    JsString :=
  bufferToHex (ethers.keccak256
    (Library.bytes (stringifyPairs (canonicalPairs ethers sourceDigests))))

/-! ## Git -/

abbrev Git := List JsString → Option (List UInt8)

/-- `git show <rev>:<file>`. -/
def showFile (git : Git) (rev file : JsString) : Option (List UInt8) :=
  git [js "show", rev ++ 0x3a :: file]

/-- `checkCommitObjectAvailable`. -/
def commitObjectPresent (git : Git) (commit : JsString) : Bool :=
  (git [js "cat-file", js "-e", commit]).isSome

/-! ## The anchor -/

inductive AnchorCorroboration where
  | verified
  | contradicted
  | unavailable
  deriving DecidableEq

/-- The digest of a blob. -/
def blobDigest (ethers : Ethers) (blob : List UInt8) : JsString :=
  bufferToHex (ethers.keccak256 blob)

/-- Both digests in lower case. -/
def sameDigest (ethers : Ethers) (actual recorded : JsString) : Bool :=
  toLowerCase ethers actual == toLowerCase ethers recorded

/-- What the anchor commit says against a recorded digest. -/
def disagreement (ethers : Ethers) (git : Git) (anchorCommit : JsString)
    (entry : JsString × JsString) : Option JsString :=
  match showFile git anchorCommit entry.1 with
  | none => some (entry.1 ++ js ": not present at the anchor commit")
  | some blob =>
      let actual := blobDigest ethers blob
      if sameDigest ethers actual entry.2 then none
      else some (entry.1 ++ js ": anchor tree holds " ++ actual ++ js ", capture recorded " ++
        entry.2)

def corroborate (ethers : Ethers) (git : Git) (anchorCommit : JsString)
    (entries : List (JsString × JsString)) : AnchorCorroboration × JsString :=
  let unavailable := (.unavailable, js "anchor commit " ++ anchorCommit ++
    js " is not in this checkout's object database, so the capture's " ++
    js "provenance could not be corroborated; the cause is not observable from git (an erased branch " ++
    js "tip, a never-fetched object, a collected object, and a SHA that never existed are " ++
    js "indistinguishable). This does not affect the freshness verdict, which rests on content.")
  if commitObjectPresent git anchorCommit then
    let disagreements := entries.filterMap (disagreement ethers git anchorCommit)
    if disagreements ≠ [] then
      (.contradicted, js "anchor commit " ++ anchorCommit ++
        js " is present but its tree CONTRADICTS the recorded digests — " ++
        js "the capture names a commit that never held the content it claims to describe: " ++
        (js "; ").intercalate (disagreements.take 3) ++
        if 3 < disagreements.length then js "; ..." else [])
    else if entries ≠ [] then
      (.verified, js "anchor commit " ++ anchorCommit ++
        js " is present and its tree agrees with every recorded digest")
    else unavailable
  else unavailable

/-! ## The verdict -/

structure CoveredContentCheck where
  stale : Option Bool
  changedFiles : List JsString
  capturedContentDigest : JsString
  headContentDigest : Option JsString
  anchor : AnchorCorroboration
  anchorDetail : JsString
  error : Option JsString

/-- What the loop over the covered files has gathered. -/
structure HeadScan where
  changedFiles : List JsString
  headDigests : Value
  headReadable : Bool

/-- One covered file at HEAD. -/
def HeadScan.step (ethers : Ethers) (git : Git) (scan : HeadScan) (entry : JsString × JsString) :
    HeadScan :=
  match showFile git (js "HEAD") entry.1 with
  | none => { scan with
      changedFiles := scan.changedFiles ++ [entry.1 ++
        js ": no longer present at current HEAD (deleted or renamed since capture)"]
      headReadable := false }
  | some blob =>
      let headDigest := blobDigest ethers blob
      { scan with
        headDigests := (assign entry.1 (.string headDigest) scan.headDigests).getD scan.headDigests
        changedFiles := if sameDigest ethers headDigest entry.2 then scan.changedFiles
          else scan.changedFiles ++ [entry.1 ++ js ": content at HEAD is " ++ headDigest ++
            js ", capture recorded " ++ entry.2] }

/-- The properties of an object that are strings. -/
def stringProperties : Value → List (JsString × JsString)
  | .object own _ => own.filterMap fun entry =>
      match entry.2 with
      | .string s => some (entry.1, s)
      | _ => none
  | _ => []

/-- `verifyCoveredContentAgainstHead`. -/
def verifyCoveredContentAgainstHead (ethers : Ethers) (git : Git) (anchorCommit : JsString)
    (sourceDigests : List (JsString × JsString)) : CoveredContentCheck :=
  let capturedContentDigest := canonicalCoveredContentDigest ethers sourceDigests
  let entries := objectEntries sourceDigests
  let (anchor, anchorDetail) := corroborate ethers git anchorCommit entries
  if entries = [] then {
    stale := none
    changedFiles := []
    capturedContentDigest := capturedContentDigest
    headContentDigest := none
    anchor := anchor
    anchorDetail := anchorDetail
    error := some (js "sourceDigests is empty — a capture that bound no source files proves nothing about freshness") }
  else if git [js "rev-parse", js "HEAD"] = none then {
    stale := none
    changedFiles := []
    capturedContentDigest := capturedContentDigest
    headContentDigest := none
    anchor := anchor
    anchorDetail := anchorDetail
    error := some (js "could not resolve current HEAD to compare covered source content") }
  else
    let scan := entries.foldl (HeadScan.step ethers git) ⟨[], JsObjects.empty, true⟩
    { stale := some (decide (scan.changedFiles ≠ []))
      changedFiles := scan.changedFiles
      capturedContentDigest := capturedContentDigest
      headContentDigest := if scan.headReadable then
        some (canonicalCoveredContentDigest ethers (stringProperties scan.headDigests)) else none
      anchor := anchor
      anchorDetail := anchorDetail
      error := none }

end WalletWall.ReproducibilityEvidence

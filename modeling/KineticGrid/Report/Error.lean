import KineticGrid.Space.Vec3
import KineticGrid.Sweep.Pass
import KineticGrid.Report.Quoted
/-!
# Errors

The causes for which an operation refuses its input, and the wording of each.
-/

namespace KineticGrid

inductive Quantity where
  | velocityArray
  | energyArray
  | stagingBuffer
  | stagedElements
  | haloGrid
  | leftBuffer
  | rightBuffer
  | embeddedMasses
  | rawBins
  | binWidth
  | nativeCount
  | embeddedCount
deriving DecidableEq, Repr

def Quantity.text : Quantity → String
  | .velocityArray => "cell velocity array"
  | .energyArray => "cell energy array"
  | .stagingBuffer => "staging buffer"
  | .stagedElements => "staged elements"
  | .haloGrid => "halo grid"
  | .leftBuffer => "left halo buffer"
  | .rightBuffer => "right halo buffer"
  | .embeddedMasses => "embedded masses"
  | .rawBins => "raw cell list"
  | .binWidth => "cell list width"
  | .nativeCount => "native particle count"
  | .embeddedCount => "embedded particle count"

inductive LinkFailure where
  /-- The message with a neighbour's slab did not arrive. -/
  | noSlab
  /-- The message with a rank's totals did not arrive. -/
  | noTotals
  /-- A message has another length than the receiver's own extents ask for. -/
  | wrongLength (expected found : Nat)
  /-- A rank takes part in a sum over fewer ranks than its own number. -/
  | outsideWorld (rank ranks : Nat)
  | described (reason : String)
deriving DecidableEq, Repr

def LinkFailure.text : LinkFailure → String
  | .noSlab => "no halo data received"
  | .noTotals => "no reduction contribution received"
  | .wrongLength expected found => s!"expected {expected} bytes, got {found}"
  | .outsideWorld rank ranks => s!"rank {rank} outside world of {ranks}"
  | .described reason => reason

inductive Error where
  | lengthMismatch (what : Quantity) (expected found : Nat)
  | invalidDimension (n : UInt32)
  | zeroBlock (pass : Pass)
  | invalidTopology (dims ghost : Vec3 UInt32)
  | invalidParticle (index : UInt32) (native embedded : Nat)
  | scratchTooSmall (required found : Nat)
  | allocation (what : Quantity) (bytes : Nat)
  | workerPool (reason : String)
  /-- A worker of the pass stopped; `none` where the cause has no wording of its own. -/
  | launch (pass : Pass) (reason : Option String)
  | overlappingSlabs (left right : String)
  | boxOutsideGrid (box : String) (dims : Vec3 UInt32)
  | link (neighbour : Nat) (failure : LinkFailure)
deriving DecidableEq, Repr

namespace Error

def message : Error → String
  | .lengthMismatch what expected found =>
    s!"length mismatch for {what.text}: expected {expected}, found {found}"
  | .invalidDimension n => s!"invalid dimensionality {n} (expected 2 or 3)"
  | .zeroBlock pass => s!"worker-group size for pass `{pass.name}` must be non-zero"
  | .invalidTopology dims ghost =>
    s!"invalid topology: dims {dims.text} cannot hold ghost width {ghost.text}"
  | .invalidParticle index native embedded =>
    s!"particle index {index} out of range (native {native}, embedded {embedded})"
  | .scratchTooSmall required found =>
    s!"reduction scratch too small: required {required} bytes, found {found}"
  | .allocation what bytes => s!"failed to allocate {bytes} bytes for {what.text}"
  | .workerPool reason => s!"failed to build worker pool: {reason}"
  | .launch pass reason =>
    let why := reason.getD ""
    s!"launch of pass `{pass.name}` failed: {why}"
  | .overlappingSlabs left right =>
    s!"halo ranges overlap: left {quoted left}, right {quoted right}"
  | .boxOutsideGrid box dims => s!"cell range {box} lies outside grid {dims.text}"
  | .link neighbour failure =>
    s!"communication with neighbor {neighbour} failed: {failure.text}"

end Error

end KineticGrid

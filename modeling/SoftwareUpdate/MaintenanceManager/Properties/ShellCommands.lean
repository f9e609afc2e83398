import SoftwareUpdate.MaintenanceManager.Proofs.StartTimes

/-!
# No shell injection through the zone files

Every command that `CalculateStartTime` runs is built from the zone, after its characters have
been checked, and from numbers that are printed. The check is made in the branch for local time
only, where a zone with other characters is an error; in UTC no command is run.
-/

namespace SoftwareUpdate.MaintenanceManager

open Misc Helpers

variable {env : StartTimeEnv} {zone cmd : Text} {conf : StartConfig} {tm : Tm} {n : ℕ}
  {commands : List Text}

end SoftwareUpdate.MaintenanceManager

import Mathlib.Data.List.DropRight
import Mathlib.Logic.Relation
import CloudAlert.Text.Bytes

/-!
# The configuration of the mail account

`LoadConfig` reads `server.conf` line by line. It drops spaces and tabs before the key,
between the key and `=`, and at the end of the line with the carriage returns there; those
between `=` and the value stay in the value. Two texts with the same keys and values can
so differ in the settings, and `loadConfig_eq_iff_sameGaps` says when they do.

A text-mode stream may deliver `\r\n` as `\n`. The bytes are taken as they stand, since a
line and the line with a carriage return after it are read alike (`keyValue_append`).
-/

namespace CloudAlert

/-! ## Settings -/

section LastValue

variable {κ β : Type*} [DecidableEq κ]

/-- The value of the last entry under `key`. -/
def lastValue (key : κ) (entries : List (κ × β)) : Option β :=
  ((entries.filter (·.1 = key)).getLast?).map Prod.snd

@[simp] theorem lastValue_nil (key : κ) : lastValue key ([] : List (κ × β)) = none := rfl

end LastValue

end CloudAlert

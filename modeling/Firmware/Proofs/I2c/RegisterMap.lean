/-
  Firmware: the registers of an I2C controller are different ones, whatever its base is. Addresses
  wrap around, so this is about sums modulo 2^64.
-/
import Firmware.I2c.RegisterMap

namespace Firmware.I2c

theorem window_ne {offset offset' : UInt64} (base : UInt64) (h : offset ≠ offset') :
    base + offset ≠ base + offset' :=
  fun heq => h ((UInt64.add_right_inj base).mp heq)

theorem control_ne_status (base : UInt64) : base + controlOffset ≠ base + statusOffset :=
  window_ne base (by decide)

theorem data_ne_status (base : UInt64) : base + dataOffset ≠ base + statusOffset :=
  window_ne base (by decide)

theorem control_ne_data (base : UInt64) : base + controlOffset ≠ base + dataOffset :=
  window_ne base (by decide)

end Firmware.I2c

import CodexOS.Lib.Bytes

/-! # The checksum of the persistent formats

The release format and the file system carry the same bitwise CRC-32.
-/

namespace CodexOS

/-- One turn of the inner loop: shift, and fold the polynomial in when a bit fell out. -/
def crc32Shift (crc : UInt32) : UInt32 :=
  let mask := 0 - (crc &&& 1)
  (crc >>> 1) ^^^ (0xedb88320 &&& mask)

def crc32 (bytes : Bytes) : UInt32 :=
  ~~~ bytes.foldl (fun crc byte => crc32Shift^[8] (crc ^^^ byte.toUInt32)) 0xffffffff

example : crc32 [0x31, 0x32, 0x33, 0x34, 0x35, 0x36, 0x37, 0x38, 0x39] = 0xcbf43926 := by
  decide +kernel

end CodexOS

import Sealed.Identity

/-! Pinned contacts and their aliases. -/

set_option autoImplicit false

namespace Sealed

/-- A contact's alias is kept as the bytes of its string. -/
structure Contact where
  «alias» : List UInt8
  profile : PublicProfile
deriving DecidableEq

/-- `u8::is_ascii_alphanumeric`. -/
def isAsciiAlphanumeric (byte : UInt8) : Bool :=
  (0x30 ≤ byte && byte ≤ 0x39) || (0x41 ≤ byte && byte ≤ 0x5a) || (0x61 ≤ byte && byte ≤ 0x7a)

def validateAlias (name : List UInt8) : Bool :=
  !name.isEmpty && name.length ≤ 64 &&
    name.all fun byte => isAsciiAlphanumeric byte || byte == 0x2d || byte == 0x5f

end Sealed

/-! Hexadecimal texts of words and bytes, in lower case. -/

namespace SimdNetwork

/-- A word in hexadecimal, without leading zeros. -/
def hexWord (word : Nat) : String :=
  "0x" ++ String.ofList (Nat.toDigits 16 word)

/-- A byte as two hexadecimal digits. -/
def hexByte (byte : UInt8) : String :=
  String.ofList ((byte.toNat / 16).digitChar :: [(byte.toNat % 16).digitChar])

/-- A byte as two hexadecimal digits behind the mark of the notation. -/
def hexImmediate (byte : UInt8) : String := "0x" ++ hexByte byte

end SimdNetwork

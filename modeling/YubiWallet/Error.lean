import YubiWallet.Text

/-! The error type and the status words of the card. -/
namespace YubiWallet

inductive Error where
  | pcsc (e : String)
  | io (e : String)
  | noReaders
  | shortResponse
  | card (status : UInt16) (message : String)
  | dataTooLong (n : Nat)
  | pubkeyNotFound (m : String)
  | unsupported (m : String)
  | parse (m : String)
  | recoveryFailed
  | signature (m : String)
deriving DecidableEq, Repr

/-- The message `e.to_string()` gives. -/
def Error.display : Error → String
  | .pcsc e => s!"PC/SC error: {e}"
  | .io e => s!"io error: {e}"
  | .noReaders => "no smart card readers found"
  | .shortResponse => "card response too short (< 2 bytes)"
  | .card status message => s!"card error {fmt04X status}: {message}"
  | .dataTooLong n => s!"APDU data field too long ({n} bytes, max 255 for short APDU)"
  | .pubkeyNotFound m => s!"public key not found: {m}"
  | .unsupported m => s!"unsupported operation: {m}"
  | .parse m => s!"parse error: {m}"
  | .recoveryFailed => "could not recover Ethereum recovery id from signature"
  | .signature m => s!"signature error: {m}"

def statusWordMessage (status : UInt16) : String :=
  if status = 0x9000 then "success"
  else if 0x63C0 ≤ status ∧ status ≤ 0x63CF then
    s!"PIN verification failed. Retries left: {(status &&& 0x0F).toNat}"
  else if status = 0x6983 then
    "PIN verification failed. Authentication method blocked (PIN locked)"
  else if status = 0x6982 then
    "Security status not satisfied (e.g., PIN required or wrong PIN context)"
  else if status = 0x6985 then "Conditions of use not satisfied (e.g., key usage not allowed)"
  else if status = 0x6A80 then
    "Wrong data field parameters (e.g., incorrect PIN length/format)"
  else if status = 0x6A86 then "Incorrect P1/P2 parameters"
  else if status = 0x6A88 then
    "Referenced data not found (e.g., key invalid or PIN reference wrong)"
  else if status = 0x6D00 then "Instruction not supported"
  else if status = 0x6E00 then "Class not supported"
  else s!"Card returned error status: {fmt04X status}"

end YubiWallet

import YubiWallet.Account
import YubiWallet.Lib.Base64

/-! The command line. -/
namespace YubiWallet.Cli

/-- The options `--applet`, `--slot` and `--curve`. -/
structure AccountArgs where
  applet : String := "piv"
  slot : String := "9a"
  curve : String := "ed25519"

def AccountArgs.toAccount (args : AccountArgs) : Except String Account := do
  let applet ← (Applet.fromStr args.applet).mapError Error.display
  let curve ← (Curve.fromStr args.curve).mapError Error.display
  let slot ← (parseSlot applet args.slot).mapError Error.display
  if applet = .piv ∧ curve = .secp256k1 then
    .error "PIV does not support secp256k1; use --applet openpgp"
  else pure ⟨applet, slot, curve⟩

/-- The Solana address of an SSH key. The error texts of the base64 decoder are a
parameter. -/
def sshEd25519ToSolana (base64Error : Bytes → String) (sshKey : String) : Except String String :=
  match splitWhitespace sshKey with
  | name :: field :: _ =>
    if name ≠ "ssh-ed25519" then .error "expected 'ssh-ed25519 <base64> [comment]'"
    else
      match Base64.decode (asBytes field) with
      | none => .error s!"base64 decode: {base64Error (asBytes field)}"
      | some raw =>
        let idx := 4 + "ssh-ed25519".length + 4
        -- the bytes in front of the key, and those behind it, are not looked at
        if idx + 32 ≤ raw.length then .ok (Bs58.encode ((raw.drop idx).take 32))
        else .error "SSH key data too short"
  | _ => .error "expected 'ssh-ed25519 <base64> [comment]'"

end YubiWallet.Cli

import YubiWallet.Lib.Iso7816
import YubiWallet.Lib.Framing
import YubiWallet.Lib.Transition
import YubiWallet.CommandOrder
import YubiWallet.Detection
import YubiWallet.GeneralAuthenticate
import YubiWallet.Templates
import YubiWallet.OpenpgpCommands
import YubiWallet.Refusals
import YubiWallet.Wasm
import YubiWallet.PointCheck
import YubiWallet.BerLengths
import YubiWallet.ApduForms
import YubiWallet.Certificate
import YubiWallet.Decoding
import YubiWallet.SshKey
import YubiWallet.Host.Effects
import YubiWallet.Host.Loop
import YubiWallet.Host.Soundness
import YubiWallet.Host.Listing
import YubiWallet.Host.CurveGuard
import YubiWallet.Host.SignatureLength
import YubiWallet.Host.FrontEnds
import YubiWallet.Client.Matching
import YubiWallet.Client.Closing
import YubiWallet.Client.IdEcho
import YubiWallet.Host.PinSecrecy
import YubiWallet.Host.ListedSigner
import YubiWallet.Cli.Listing
import YubiWallet.Chains.BitcoinSpend
import YubiWallet.Chains.SolanaTransfer
import YubiWallet.Chains.Sui
import YubiWallet.Chains.EthereumTransfer
import YubiWallet.Client.InOrder
import YubiWallet.Client.Types
import YubiWallet.Chains.Compression
import YubiWallet.SharedCard

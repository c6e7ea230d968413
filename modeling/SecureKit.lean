import SecureKit.Base.Outcome
import SecureKit.Base.ByteString
import SecureKit.Base.Iostream
import SecureKit.Base.Evp
import SecureKit.Error
import SecureKit.Random
import SecureKit.Hash
import SecureKit.File.Crypto
import SecureKit.File.Stream
import SecureKit.File.Payload
import SecureKit.File.Format
import SecureKit.File.Open
import SecureKit.File.Seal
import SecureKit.File.RoundTrip
import SecureKit.File.Integrity
import SecureKit.File.InputFailure
import SecureKit.File.Language
import SecureKit.File.Limits
import SecureKit.Base.Gcm
import SecureKit.Base.Kdf
import SecureKit.File.Layout
import SecureKit.File.Reseal
import SecureKit.Packet.Internal
import SecureKit.Packet.Stream
import SecureKit.Packet.Transition
import SecureKit.Packet.Rejection
import SecureKit.Packet.Lifecycle
import SecureKit.Packet.Wire
import SecureKit.Packet.OneShot
import SecureKit.Secrecy
import SecureKit.Base.Simulation
import SecureKit.Base.FileSystem
import SecureKit.File.OutputFile
import SecureKit.File.Parametric
import SecureKit.File.Path
import SecureKit.File.Protocol
import SecureKit.File.PathResult
import SecureKit.File.Ownership
import SecureKit.File.AllOrNothing
import SecureKit.File.Leftover
import SecureKit.File.Concurrent
import SecureKit.Cli.Commands
import SecureKit.Cli.Protocol
import SecureKit.Cli.Ownership
import SecureKit.File.Verdict
import SecureKit.Cli.Verify
import SecureKit.Base.Text
import SecureKit.Codec.Hex
import SecureKit.Cli.KeyFile
import SecureKit.Cli.Delivery
import SecureKit.Base.Bits
import SecureKit.Codec.Base64
import SecureKit.Codec.Base64Url
import SecureKit.File.Codec
import SecureKit.Base.Invariant
import SecureKit.Invocation
import SecureKit.Base.Options
import SecureKit.Cli.CommandLine
import SecureKit.Cli.OptionGrammar
import SecureKit.Cli.Dispatch
import SecureKit.Cli.Silence
import SecureKit.File.Written
import SecureKit.Cli.FileResults
import SecureKit.Cli.ExitStatus
import SecureKit.Base.Lifetime
import SecureKit.Base.Ranges
import SecureKit.File.Handles
import SecureKit.RandomFill
import SecureKit.Base.Durability
import SecureKit.File.Crash
import SecureKit.File.Pipeline
import SecureKit.File.Interrupted
import SecureKit.Packet.Channel
import SecureKit.Cli.Pipe

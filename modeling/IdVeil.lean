import IdVeil.Proofs.Numerals
import IdVeil.Store
import IdVeil.Proofs.Codec.Alphabet
import IdVeil.Proofs.Codec.Groups
import IdVeil.Proofs.Codec.Spelling
import IdVeil.Proofs.Layout.TwosComplement
import IdVeil.Proofs.Layout.BigInteger
import IdVeil.Proofs.Layout
import IdVeil.Proofs.Layout.FixedWidth
import IdVeil.Proofs.Engine.Schemes
import IdVeil.Proofs.Key.Memo
import IdVeil.Proofs.Engine.Envelopes
import IdVeil.Proofs.Mask.Fresh
import IdVeil.Proofs.Cache
import IdVeil.Proofs.Mask.Requests
import IdVeil.Proofs.Mask.Cached
import IdVeil.Proofs.Fleet.Basic
import IdVeil.Proofs.Fleet.Coherence
import IdVeil.Proofs.Fleet.Transparency
import IdVeil.Proofs.Fleet.PrivateCaches
import IdVeil.Proofs.Fleet.Acceptance
import IdVeil.Proofs.Fleet.RoundTrip
import IdVeil.Proofs.Fleet.SharedCache
import IdVeil.Proofs.Engine.Reading
import IdVeil.Proofs.Engine.Rotation
import IdVeil.Proofs.Engine.Foreign
import IdVeil.Proofs.Fleet.Revocation
import IdVeil.Proofs.Codec.Symbols
import IdVeil.Proofs.Codec.Regrouping
import IdVeil.Proofs.Codec.Blank
import IdVeil.Proofs.Field.Runs
import IdVeil.Proofs.Field.Labels
import IdVeil.Proofs.Engine.Formats
import IdVeil.Proofs.Engine.Rejections
import IdVeil.Proofs.Engine.EightByteFormat
import IdVeil.Proofs.Engine.KeySwap
import IdVeil.Proofs.Engine.SivFormat
import IdVeil.Proofs.Engine.SixteenByteFormat
import IdVeil.Proofs.Mask.Untouched
import IdVeil.Proofs.Mask.Discipline
import IdVeil.Proofs.Field.Following
import IdVeil.Proofs.Engine.Checked
import IdVeil.Proofs.Mask.Checked
import IdVeil.Proofs.Fleet.Failures
import IdVeil.Proofs.Fleet.CleanFailures
import IdVeil.Key.Shared
import IdVeil.Proofs.Cache.Recency
import IdVeil.Proofs.Cache.Directions
import IdVeil.Proofs.Engine.Obfuscation
import IdVeil.Proofs.Key.Integrity
import IdVeil.Proofs.Key.Siblings
import IdVeil.Proofs.Codec.TextLength
import IdVeil.Proofs.Fleet.TokenLength

import IdVeil.Cache.Lru
import IdVeil.Cache.Memory
import IdVeil.Codec.Basic
import IdVeil.Engine.Basic

/-!
Configurations: which keys, codec, modes and cache the masks built from them use.
-/
namespace IdVeil

/-- A key ring by its place, so that clearing it is seen by all that use it. -/
abbrev RingId := Nat

structure Config where
  ring : RingId
  codec : Codec := .base64Url
  randomized : Bool := false
  highSecurity : Bool := false
  cacheSize : Option Capacity := some MemoryCache.defaultCapacity
  obfuscation : FixedBytes 8 := .zeros 8

namespace Config

/-- Keeps so many results in each direction. -/
def setCacheSize (c : Config) (size : Nat) : Except ConfigError Config :=
  if h : 0 < size then .ok { c with cacheSize := some ⟨size, h⟩ } else .error .invalidCacheSize

def noCache (c : Config) : Config := { c with cacheSize := none }

/-- Sets the key of the veil over SIV envelopes, which is no secret. -/
def setObfuscation (c : Config) (key : Bytes) : Except ConfigError Config :=
  if h : key.length = 8 then .ok { c with obfuscation := ⟨key, h⟩ }
  else .error (.invalidObfuscationKey key.length)

def describe (c : Config) (ring : KeyRing) : String :=
  let size := match c.cacheSize with
    | none => "None"
    | some n => s!"Some({n.val})"
  s!"Config \x7b keys: {ring.describe}, randomized: {c.randomized}, " ++
    s!"high_security: {c.highSecurity}, cache_size: {size}, .. \x7d"

def eightByte (c : Config) : Engine := ⟨.eightByte, c.randomized⟩

def sixteenByte (c : Config) : Engine := ⟨.sixteenByte c.highSecurity, c.randomized⟩

def siv (c : Config) (width : SivWidth) : Engine := ⟨.siv width c.obfuscation, c.randomized⟩

end Config

end IdVeil

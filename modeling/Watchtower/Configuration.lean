import Watchtower.Fault
import Watchtower.Text.Numeral

/-!
# The configuration of the program

* `Setting` : what can be set from outside, and `Setting.Value` the type of its values;
* `Setting.read?` : a value from its text;
* `Given` : the values that have been given so far;
* `Configuration` : a value for everything; `Given.complete?` fills in the defaults;
* `Configuration.problem?` : what keeps a configuration from being used.
-/

namespace Watchtower

inductive Setting
  /-- Where games are read and transactions are sent. -/
  | l1Endpoint
  /-- The rollup node whose outputs are trusted. -/
  | rollupEndpoint
  /-- The key that signs transactions. -/
  | signerKey
  /-- The factory whose games are watched. -/
  | factory
  /-- The type of the games that are watched. -/
  | gameType
  /-- Seconds from one tick of a game to the next. -/
  | pollInterval
  /-- How old a game may be that is found at the start, in seconds. -/
  | gameWindow
  /-- How many outputs are kept for each game. -/
  | cacheSize
  /-- The stride of a game that does not say its own. -/
  | blockDistance
  deriving DecidableEq

namespace Setting

def all : List Setting :=
  [l1Endpoint, rollupEndpoint, signerKey, factory, gameType, pollInterval, gameWindow, cacheSize,
    blockDistance]

abbrev Value : Setting → Type
  | l1Endpoint | rollupEndpoint | signerKey => String
  | factory => Address
  | gameType => UInt32
  | pollInterval | gameWindow | cacheSize | blockDistance => UInt64

/-- Blanks may stand anywhere between the digits of an address. -/
def readAddress? (cs : List Char) : Option Address :=
  hexDigits? ((withoutHexMark cs).filter (!isBlank ·)) >>= Address.ofBytes?

def read? : (s : Setting) → String → Option s.Value
  | l1Endpoint, text | rollupEndpoint, text | signerKey, text => some text
  | factory, text => readAddress? text.toList
  | gameType, text => (Text.signedBelow? UInt32.size text.toList).map UInt32.ofNat
  | pollInterval, text | gameWindow, text | cacheSize, text | blockDistance, text =>
    (Text.below? UInt64.size text.toList).map UInt64.ofNat

end Setting

/-- What has been given from outside. -/
structure Given where
  value? : (s : Setting) → Option s.Value := fun _ => none
  /-- How much is to be logged, up to 255. -/
  verbosity? : Option Nat := none

namespace Given

/-- Gives a setting a value. -/
def set (g : Given) (s : Setting) (value : s.Value) : Given :=
  { g with value? := fun other => if h : s = other then some (h ▸ value) else g.value? other }

/-- One step more to be logged. -/
def louder (g : Given) : Given :=
  { g with verbosity? := some (min (g.verbosity?.getD 0 + 1) 255) }

end Given

structure Configuration where
  l1Endpoint : String
  rollupEndpoint : String
  signerKey : String
  factory : Address
  gameType : UInt32
  pollInterval : UInt64
  gameWindow : UInt64
  cacheSize : UInt64
  blockDistance : UInt64
  verbosity : Nat
  deriving DecidableEq

/-- A configuration, if all is given that has no default. By default games of the last four weeks
are watched, one tick every twelve seconds. -/
def Given.complete? (g : Given) : Option Configuration := do
  return {
    l1Endpoint := ← g.value? .l1Endpoint
    rollupEndpoint := ← g.value? .rollupEndpoint
    signerKey := ← g.value? .signerKey
    factory := ← g.value? .factory
    gameType := ← g.value? .gameType
    pollInterval := (g.value? .pollInterval).getD 12
    gameWindow := (g.value? .gameWindow).getD (28 * 24 * 60 * 60)
    cacheSize := (g.value? .cacheSize).getD 5000
    blockDistance := (g.value? .blockDistance).getD 3
    verbosity := g.verbosity?.getD 0 }

/-- Why a configuration is refused, if it is. -/
def Configuration.problem? (c : Configuration) : Option ConfigProblem :=
  if c.pollInterval = 0 then some .zeroPollInterval
  else if c.cacheSize = 0 ∨ c.blockDistance = 0 then some .zeroCacheSizeOrDistance
  else none

end Watchtower

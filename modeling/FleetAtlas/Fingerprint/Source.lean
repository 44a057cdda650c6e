import FleetAtlas.Cluster.Object
import FleetAtlas.Fingerprint.Sha512

/-!
# Fingerprints of configurations

* `Source`: entries, a config map or a secret;
* `Source.bytes`: the bytes that a source contributes, its entries in the order of their keys, each key before its value;
* `fingerprint`: the hash of sources one after the other, so that their order counts and that of their entries does not.
-/

namespace FleetAtlas

/-- The bytes of a text. -/
def utf8 (s : String) : List UInt8 := s.toUTF8.data.toList

/-- A part of a configuration. -/
inductive Source where
  | entries (l : List (String × List UInt8))
  | configMap (c : ConfigMap)
  | secret (s : Secret)

/-- Entries in the order of their keys, those of one key in the order they had. -/
def sortByKey {α : Type} (l : List (String × α)) : List (String × α) := l.mergeSort fun a b => !decide (b.1 < a.1)

/-- The bytes of entries, sorted by key. -/
def entriesBytes (l : List (String × List UInt8)) : List UInt8 := (sortByKey l).flatMap fun e => utf8 e.1 ++ e.2

namespace Source

/-- The bytes that a source contributes; the text entries of a config map come before its binary ones. -/
def bytes : Source → List UInt8
  | entries l => entriesBytes l
  | configMap c => entriesBytes (c.data.mapValues fun _ text => utf8 text).toList ++ entriesBytes c.binaryData.toList
  | secret s => entriesBytes s.data.toList

end Source

/-- The bytes that sources contribute, one source after the other. -/
def stream (sources : List Source) : List UInt8 := sources.flatMap Source.bytes

/-- The two digits of a byte in lower case. -/
def hexByte (b : UInt8) : List Char :=
  let digit (n : Nat) : Char := if n < 10 then Char.ofNat ('0'.toNat + n) else Char.ofNat ('a'.toNat + (n - 10))
  [digit (b.toNat / 16), digit (b.toNat % 16)]

/-- The hash of what sources contribute, in hexadecimal digits. -/
def fingerprint (sources : List Source) : String :=
  String.ofList ((Sha512.digest (stream sources)).flatMap hexByte)

end FleetAtlas

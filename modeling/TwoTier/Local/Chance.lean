import TwoTier.Local.Cache

/-!
A source of chance for running caches.

Nothing that holds of a cache depends on what this source yields; it only has to spread keys and
positions evenly. Both are taken from one mixing function of 64-bit words.
-/

set_option autoImplicit false
set_option relaxedAutoImplicit false

namespace TwoTier.Chance

/-- Mixes the bits of a word, so that each bit of the result depends on all of them. -/
def mix (x : UInt64) : UInt64 :=
  let x := (x ^^^ (x >>> 30)) * 0xBF58476D1CE4E5B9
  let x := (x ^^^ (x >>> 27)) * 0x94D049BB133111EB
  x ^^^ (x >>> 31)

/-- The step between the words that are mixed one after the other. -/
def stride : UInt64 := 0x9E3779B97F4A7C15

/-- The hash of a text: its bytes are mixed into a word one by one. -/
def hashText (s : String) : UInt64 :=
  s.toUTF8.toList.foldl (fun h b ↦ mix (h + stride + b.toUInt64)) 0

/-- A source that mixes the bytes of keys and the number of each draw. -/
def mixed : Chance := ⟨hashText, fun i ↦ (mix (stride * (i.toUInt64 + 1))).toNat⟩

end TwoTier.Chance

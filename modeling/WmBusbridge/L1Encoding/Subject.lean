import WmBusbridge.L1Encoding.Json
import WmBusbridge.L1Encoding.Str

/-!
# NATS subjects

A subject is a dot-separated list of tokens. NATS is outside the repository. `Nats`
is what it does with a publish, whose subject the client writes as it is into the
`PUB` line: a text outside the grammar may come out as another subject, with other
bytes behind it, or not at all.

* `validSubject_dot`: a subject can be cut at any of its dots.
* `validSubject_not_blank`: a subject has no blank in it.
-/
namespace WmBusbridge.L1
open Str

/-- `char::is_control` (Unicode `Cc`). -/
def isControl (c : Char) : Bool :=
  let n := c.toNat
  n < 0x20 || (0x7F ≤ n && n ≤ 0x9F)

/-- Not empty, no blank or control character, not a wildcard. -/
def validToken (t : String) : Bool :=
  t != "" && t != "*" && t != ">" && t.toList.all fun c => !isWhitespace c && !isControl c

def validSubject (s : String) : Bool := (split s '.').all validToken

theorem validToken_not_blank {t : String} {c : Char} (h : validToken t = true)
    (hc : c ∈ t.toList) : isWhitespace c = false := by
  unfold validToken at h
  rw [Bool.and_eq_true, List.all_eq_true] at h
  simpa using (Bool.and_eq_true_iff.mp (h.2 c hc)).1

/-- A subject can be cut at any of its dots. -/
theorem validSubject_dot (s t : String) :
    validSubject (s ++ "." ++ t) = (validSubject s && validSubject t) := by
  have hlist : (s ++ "." ++ t).toList = s.toList ++ '.' :: t.toList := by simp
  simp only [validSubject, split, hlist, List.splitOn_append_cons_self, List.map_append,
    List.all_append]

/-- A subject has no blank in it. -/
theorem validSubject_not_blank {s : String} {c : Char} (h : validSubject s = true)
    (hc : c ∈ s.toList) : isWhitespace c = false := by
  by_cases hdot : c = '.'
  · subst hdot
    decide
  · obtain ⟨p, hp, hcp⟩ := mem_splitOn hc hdot
    have ht := List.all_eq_true.mp h (.ofList p) (List.mem_map_of_mem hp)
    exact validToken_not_blank ht (by rwa [String.toList_ofList])

/-- `carry subject payload` is the message that a publish brings to each subscription
to `wm.>`, if it brings one. -/
structure Nats where
  carry : String → Bytes → Option (String × Bytes)
  carry_valid : ∀ t p m, validSubject t = true → carry t p = some m → m = (t, p)

/-- It carries what is on a subject under `wm.`, and nothing else. -/
def Nats.subjects : Nats where
  carry t p := if validSubject t && startsWith t "wm." then some (t, p) else none
  carry_valid t p m _ h := by
    split at h
    · exact (Option.some.inj h).symm
    · cases h

end WmBusbridge.L1

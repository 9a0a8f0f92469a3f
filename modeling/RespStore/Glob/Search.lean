import RespStore.Glob

/-! A matcher of glob patterns, on the bytes of texts: `*` and `?` do not match a slash, `**` does,
`[…]` is a class of bytes, `{…,…}` is a choice and `!` in front negates. The search keeps two places
to resume from, and a stack of the choices that are open. -/
namespace RespStore.Glob

abbrev Text := Array UInt8

/-- A place in the pattern and a place in the text. -/
structure Place where
  glob : Nat := 0
  path : Nat := 0

/-- Where a search stands, and the places that the last `*` and the last `**` resume from. A place
whose `path` is zero is none. -/
structure Spot where
  glob : Nat
  path : Nat
  wild : Place := {}
  globstar : Place := {}

/-- The spots at which open choices began, innermost first, and the end of the longest
alternative matched. -/
structure Search where
  spot : Spot
  choices : List Spot := []
  longest : Nat := 0

/-- The number of choices that may be open at once. -/
def maxOpen : Nat := 10

/-- The byte that stands at a place or is escaped there, and the place of its last byte. -/
def unescape? (g : Text) (i : Nat) : Option (UInt8 × Nat) :=
  match g[i]? with
  | none => none
  | some 92 =>
    match g[i + 1]? with
    | none => none
    | some 98 => some (8, i + 1)
    | some 110 => some (10, i + 1)
    | some 114 => some (13, i + 1)
    | some 116 => some (9, i + 1)
    | some c => some (c, i + 1)
  | some c => some (c, i)

/-- Passes over repetitions of `/**`. -/
def skipGlobstars (g : Text) (i : Nat) : Nat :=
  if h : i < g.size then
    if g[i] = 47 ∧ g[i + 1]? = some 42 ∧ g[i + 2]? = some 42 then skipGlobstars g (i + 3) else i
  else i
termination_by g.size - i

inductive Skipped where
  | unclosed
  | atAlternative (glob : Nat)
  | atEnd (glob : Nat)

/-- Passes over the rest of a choice, to its end or to its next alternative. -/
def skipChoice (g : Text) (toAlternative : Bool) :
    (fuel : Nat) → (depth : Nat) → (inClass : Bool) → (i : Nat) → Skipped
  | _, 0, _, i => .atEnd i
  | 0, _ + 1, _, _ => .unclosed
  | fuel + 1, depth + 1, inClass, i =>
    match g[i]? with
    | none => .unclosed
    | some 123 =>
      skipChoice g toAlternative fuel (if inClass then depth + 1 else depth + 2) inClass (i + 1)
    | some 125 =>
      skipChoice g toAlternative fuel (if inClass then depth + 1 else depth) inClass (i + 1)
    | some 44 =>
      if toAlternative && depth == 0 && !inClass then .atAlternative (i + 1)
      else skipChoice g toAlternative fuel (depth + 1) inClass (i + 1)
    | some 42 =>
      if !inClass && g[i + 1]? == some 42 then
        skipChoice g toAlternative fuel (depth + 1) inClass (skipGlobstars g (i + 2))
      else skipChoice g toAlternative fuel (depth + 1) inClass (i + 1)
    | some 91 => skipChoice g toAlternative fuel (depth + 1) true (i + 1)
    | some 93 => skipChoice g toAlternative fuel (depth + 1) false (i + 1)
    | some 92 => skipChoice g toAlternative fuel (depth + 1) inClass (i + 2)
    | some _ => skipChoice g toAlternative fuel (depth + 1) inClass (i + 1)

/-- Whether a byte is in the ranges of a class, and the place after the class. The first byte of a
class is a member even if it is a closing bracket. -/
def readClass? (g : Text) (c : UInt8) :
    (fuel : Nat) → (first hit : Bool) → (i : Nat) → Option (Bool × Nat)
  | 0, _, _, _ => none
  | fuel + 1, first, hit, i => do
    if i < g.size ∧ (first ∨ g[i]? ≠ some 93) then
      let (low, i) ← unescape? g i
      let i := i + 1
      if i + 1 < g.size ∧ g[i]? = some 45 ∧ g[i + 1]? ≠ some 93 then
        let (high, i) ← unescape? g (i + 1)
        readClass? g c fuel false (hit || (low ≤ c && c ≤ high)) (i + 1)
      else readClass? g c fuel false (hit || low == c) i
    else if i < g.size then some (hit, i + 1)
    else none

inductive Outcome where
  | goOn (s : Search)
  | mismatch (s : Search)
  | decide (verdict : Bool)

namespace Search

def move (s : Search) (glob path : Nat) : Search := { s with spot := { s.spot with glob, path } }

/-- Closes the innermost choice with the longest alternative matched. -/
def close (s : Search) : Search :=
  match s.choices with
  | [] => s
  | began :: rest =>
    { spot := { began with glob := s.spot.glob, path := s.longest }
      choices := rest
      longest := if rest.isEmpty then 0 else s.longest }

/-- The number of steps that may be needed to pass over a choice. -/
def skipFuel (g : Text) : Nat := g.size + 2

/-- A star: notes where to resume, and goes on after it. -/
def star (g p : Text) (s : Search) : Outcome :=
  let double := g[s.spot.glob + 1]? == some 42
  let i := if double then skipGlobstars g (s.spot.glob + 2) - 2 else s.spot.glob
  let path := s.spot.path
  let wild : Place := ⟨i, path + 1⟩
  let (i, globstar) :=
    if double then
      let i := i + 2
      if i = g.size then (i, wild)
      else if (i < 3 ∨ g[i - 3]? = some 47) ∧ g[i]? = some 47 then
        if path = 0 ∨ (path < p.size ∧ p[path - 1]? = some 47) then (i + 1, wild) else (i, wild)
      else (i, s.spot.globstar)
    else (i + 1, s.spot.globstar)
  let (i, wild) :=
    if globstar.path ≠ wild.path ∧ p[path]? = some 47 then
      if 0 < globstar.path ∧ path + 1 < p.size then
        (globstar.glob, { wild with glob := globstar.glob })
      else (i, { wild with path := 0 })
    else (i, wild)
  let s := { s with spot := ⟨i, path, wild, globstar⟩ }
  if !s.choices.isEmpty && (g[i]? == some 44 || g[i]? == some 125) then
    match skipChoice g false (skipFuel g) 1 false i with
    | .unclosed => .decide false
    | .atAlternative i | .atEnd i => .goOn (s.move i path)
  else .goOn s

def byteClass (g : Text) (s : Search) (c : UInt8) : Outcome :=
  let i := s.spot.glob + 1
  let negated := g[i]? == some 94 || g[i]? == some 33
  match readClass? g c (g.size + 1) true false (if negated then i + 1 else i) with
  | none => .decide false
  | some (hit, i) =>
    if hit != negated then .goOn (s.move i (s.spot.path + 1))
    else .mismatch (s.move i s.spot.path)

def literal (g : Text) (s : Search) (c : UInt8) : Outcome :=
  match unescape? g s.spot.glob with
  | none => .decide false
  | some (wanted, i) =>
    let s := s.move i s.spot.path
    if c = wanted then
      let s :=
        if !s.choices.isEmpty && 0 < i && g[i - 1]? == some 125 then
          close { s with longest := s.spot.path }
        else s
      let globstar :=
        if wanted = 47 then s.spot.globstar else { s.spot.globstar with path := 0 }
      .goOn { s with spot := { s.spot with
        glob := s.spot.glob + 1, path := s.spot.path + 1, globstar } }
    else .mismatch s

def forward (g p : Text) (s : Search) : Outcome :=
  let spot := s.spot
  match g[spot.glob]?, p[spot.path]? with
  | none, _ => .mismatch s
  | some 42, _ => star g p s
  | some 63, some c =>
    if c = 47 then .mismatch s else .goOn (s.move (spot.glob + 1) (spot.path + 1))
  | some 91, some c => byteClass g s c
  | some 123, some _ =>
    if s.choices.length = maxOpen then .decide false
    else .goOn { s with spot := ⟨spot.glob + 1, spot.path, {}, {}⟩, choices := spot :: s.choices }
  | some b, c =>
    match b, s.choices with
    | 125, _ :: _ =>
      .goOn (close { s with
        longest := max s.longest spot.path, spot := { spot with glob := spot.glob + 1 } })
    | 44, began :: _ =>
      .goOn { s with
        longest := max s.longest spot.path, spot := ⟨spot.glob + 1, began.path, {}, {}⟩ }
    | _, _ =>
      match c with
      | none => .mismatch s
      | some c => literal g s c

/-- Resumes after a star, if one has been met and text is left for it. -/
def resume? (p : Text) (s : Search) : Option Search :=
  let wild := s.spot.wild
  if 0 < wild.path ∧ wild.path ≤ p.size then some (s.move wild.glob wild.path) else none

/-- Goes back after a mismatch: to the last star, to the next alternative, or out of the choice. -/
def backtrack (g p : Text) (negated : Bool) (s : Search) : Outcome :=
  match resume? p s, s.choices with
  | some s, _ => .goOn s
  | none, [] => .decide negated
  | none, began :: rest =>
    match skipChoice g true (skipFuel g) 1 false s.spot.glob with
    | .unclosed => .decide false
    | .atAlternative i => .goOn (s.move i began.path)
    | .atEnd i =>
      if 0 < s.longest then .goOn (close (s.move i s.spot.path))
      else
        match resume? p { s with spot := began, choices := rest } with
        | some s => .goOn s
        | none => .decide negated

def step (g p : Text) (negated : Bool) (s : Search) : Outcome :=
  if s.spot.glob < g.size ∨ s.spot.path < p.size then
    match forward g p s with
    | .mismatch s => backtrack g p negated s
    | outcome => outcome
  else .decide !negated

def run (g p : Text) (negated : Bool) : Nat → Search → Bool
  | 0, _ => false
  | fuel + 1, s =>
    match step g p negated s with
    | .goOn s => run g p negated fuel s
    | .mismatch _ => negated
    | .decide verdict => verdict

end Search

/-- Steps enough for any search: each place that a star resumes from moves through the text, and
there are two of them for the pattern and for each open choice. -/
def searchFuel (g p : Text) : Nat := (g.size + 2) * Nat.pow (p.size + 2) (2 * maxOpen + 2)

def accepts (pattern path : Bytes) : Bool :=
  let negations := (pattern.takeWhile (· == 33)).length
  let g := pattern.toArray
  let p := path.toArray
  Search.run g p (negations % 2 == 1) (searchFuel g p) { spot := { glob := negations, path := 0 } }

instance searching : Matcher where
  accepts pattern text := accepts (Bytes.ofString pattern) (Bytes.ofString text)

end RespStore.Glob

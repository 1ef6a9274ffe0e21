import FlatQuery.Token.Stream

/-!
# Parsers

A parser reads a stream of tokens and comes to a result or an error. It never gives
input back: what it has consumed stays consumed, on an error too, and there is never
more input left than before. This is part of what a parser is, so that putting parsers
together needs no argument of its own, and a loop that consumes a token in each turn
ends.

All parsers of the shell are built from a few questions about the next token. None of
them looks further ahead than one token, and none consumes a token that it refuses.
-/

set_option autoImplicit false

namespace FlatQuery

/-- A way to read a stream that never gives input back. -/
structure Parser (α : Type) where
  /-- The result or error, and the stream afterwards. -/
  run : TokenStream → Reply α
  precedes : ∀ s : TokenStream, s.Precedes (run s).rest

namespace Parser

variable {α β : Type}

theorem precedes_of_ok {p : Parser α} {s t : TokenStream} {a : α} (h : p.run s = .ok a t) :
    s.Precedes t := by
  have := p.precedes s
  rwa [h] at this

theorem precedes_of_fail {p : Parser α} {s t : TokenStream} {e : Error}
    (h : p.run s = .fail e t) : s.Precedes t := by
  have := p.precedes s
  rwa [h] at this

@[ext] theorem ext {p q : Parser α} (h : ∀ s, p.run s = q.run s) : p = q := by
  cases p
  cases q
  congr
  exact funext h

/-! ## 1. Putting parsers together -/

/-- Reads nothing. -/
protected def pure (a : α) : Parser α := ⟨fun s => .ok a s, fun s => .refl s⟩

/-- Reads on with what a result says, unless there was an error. -/
protected def bind (p : Parser α) (f : α → Parser β) : Parser β where
  run s :=
    match p.run s with
    | .ok a t => (f a).run t
    | .fail e t => .fail e t
  precedes s := by
    have hp := p.precedes s
    split <;> rename_i h <;> rw [h] at hp
    · exact hp.trans ((f _).precedes _)
    · exact hp

instance : Monad Parser where
  pure := Parser.pure
  bind := Parser.bind

theorem run_pure (a : α) (s : TokenStream) : (pure a : Parser α).run s = .ok a s := rfl

theorem run_bind (p : Parser α) (f : α → Parser β) (s : TokenStream) :
    (p >>= f).run s =
      match p.run s with
      | .ok a t => (f a).run t
      | .fail e t => .fail e t := rfl

instance : LawfulMonad Parser :=
  .mk' Parser
    (fun p => by
      ext s
      change (match p.run s with | .ok a t => Reply.ok a t | .fail e t => .fail e t) = p.run s
      split <;> simp_all)
    (fun _ _ => rfl)
    (fun p f g => by
      ext s
      simp only [run_bind]
      cases p.run s <;> rfl)

/-- Fails where it stands. -/
def fail (e : Error) : Parser α := ⟨fun s => .fail e s, fun s => .refl s⟩

/-- A result or error that needs no reading. -/
def ofExcept : Except Error α → Parser α
  | .ok a => pure a
  | .error e => fail e

/-! ## 2. Questions about the next token -/

/-- What stands next. -/
def lookahead : Parser Lookahead := ⟨TokenStream.lookahead, TokenStream.precedes_lookahead⟩

/-- Consumes what has been looked at; the end of the input is never consumed. -/
def consume : Parser Unit :=
  ⟨fun s => .ok () s.consume, fun s => TokenStream.precedes_consume s⟩

/-- The text of what stands next. -/
def peek : Parser String := do return (← lookahead).text

/-- The name of the kind of what stands next. -/
def peekKind : Parser String := do return (← lookahead).kindName

/-- Consumes what stands next and gives its text. -/
def next : Parser String := do
  let a ← lookahead
  consume
  return a.text

/-- Whether what stands next has a text and a kind, as far as these are asked for. -/
def nextIs (text? kind? : Option String) : Parser Bool := do
  let a ← lookahead
  return text?.all (· == a.text) && kind?.all (· == a.kindName)

/-- Consumes what stands next if it has the text, and says whether it had. -/
def nextIf (text : String) : Parser Bool := do
  let a ← lookahead
  if a.text = text then
    consume
    return true
  else return false

/-- Consumes what stands next, which has to have the text. -/
def expect (text : String) : Parser String := do
  let a ← lookahead
  if a.text = text then
    consume
    return a.text
  else fail (.expectedText text a.text)

/-- Consumes what stands next, which has to be of the kind of that name. -/
def expectNamed (kind : String) : Parser String := do
  let a ← lookahead
  if a.kindName = kind then
    consume
    return a.text
  else fail (.expectedKind kind a.text)

/-- Consumes what stands next, which has to be a token of the kind. -/
def expectKind (kind : Token.Kind) : Parser String := expectNamed kind.name

/-! ## 3. Lists -/

/-- A text other than that of the end is consumed when it stands next. -/
theorem consumed_of_nextIf {text : String} (htext : text ≠ Lookahead.endOfInput.text)
    {s t : TokenStream} (h : (nextIf text).run s = .ok true t) : s.consumed < t.consumed := by
  have hs := TokenStream.lookahead_spec s
  simp only [nextIf, lookahead, run_bind] at h
  cases hl : s.lookahead with
  | fail e u => simp [hl] at h
  | ok a u =>
    rw [hl] at h hs
    simp only at h hs
    by_cases ha : a.text = text
    · cases a with
      -- The end would be found, but would not be consumed.
      | endOfInput => exact absurd ha.symm htext
      | token k =>
        rw [if_pos ha] at h
        injection h with _ ht
        rw [← ht, TokenStream.consumed_consume hs.1]
        omega
    · rw [if_neg ha] at h
      injection h with hf
      cases hf

/-- Items, each behind a separator, as long as separators follow. -/
def readMore (separator : String) (hsep : separator ≠ Lookahead.endOfInput.text)
    (item : Parser α) (s : TokenStream) : { r : Reply (List α) // s.Precedes r.rest } :=
  match h : (nextIf separator).run s with
  | .fail e t => ⟨.fail e t, precedes_of_fail h⟩
  | .ok false t => ⟨.ok [] t, precedes_of_ok h⟩
  | .ok true t =>
    match h₂ : item.run t with
    | .fail e u => ⟨.fail e u, (precedes_of_ok h).trans (precedes_of_fail h₂)⟩
    | .ok a u =>
      have hsu := (precedes_of_ok h).trans (precedes_of_ok h₂)
      match readMore separator hsep item u with
      | ⟨.ok as v, hv⟩ => ⟨.ok (a :: as) v, hsu.trans hv⟩
      | ⟨.fail e v, hv⟩ => ⟨.fail e v, hsu.trans hv⟩
termination_by s.remaining
decreasing_by
  exact hsu.remaining_lt (Nat.lt_of_lt_of_le (consumed_of_nextIf hsep h) (precedes_of_ok h₂).1)

/-- Further items of a list, each behind a separator. -/
def more (separator : String) (item : Parser α)
    (hsep : separator ≠ Lookahead.endOfInput.text := by decide) : Parser (List α) :=
  ⟨fun s => (readMore separator hsep item s).1, fun s => (readMore separator hsep item s).2⟩

/-- A list goes on exactly when a separator follows. -/
theorem more_eq (separator : String) (item : Parser α)
    (hsep : separator ≠ Lookahead.endOfInput.text) :
    more separator item hsep = (do
      if ← nextIf separator then
        let a ← item
        let as ← more separator item hsep
        return a :: as
      else return []) := by
  ext s
  change (readMore separator hsep item s).1 = _
  rw [readMore, run_bind]
  split <;> rename_i h <;> simp only [h]
  · rfl
  · rename_i t
    simp only [if_true, run_bind]
    split <;> rename_i h₂ <;> simp only [h₂]
    simp only [more]
    split <;> rename_i h₃ <;> simp [h₃, run_pure]

/-- One item or more, with separators between them. -/
def separated (separator : String) (item : Parser α)
    (hsep : separator ≠ Lookahead.endOfInput.text := by decide) : Parser (List α) := do
  let a ← item
  let as ← more separator item hsep
  return a :: as

/-! ## 4. Giving up on a statement -/

/-- Passes everything up to and with the next semicolon, or up to the end. Lexical faults
on the way are passed too. -/
def readSkip (s : TokenStream) : { r : Reply Unit // s.Precedes r.rest } :=
  match h : lookahead.run s with
  | .fail e t =>
    if _he : e.isStatementError = true then
      match readSkip t with
      | ⟨r, hr⟩ => ⟨r, (precedes_of_fail h).trans hr⟩
    else ⟨.fail e t, precedes_of_fail h⟩
  | .ok .endOfInput t => ⟨.ok () t, precedes_of_ok h⟩
  | .ok (.token k) t =>
    have hc := (precedes_of_ok h).trans (TokenStream.precedes_consume t)
    -- A literal of that text has quotes around it, so this is the semicolon.
    if k.text = ";" then ⟨.ok () t.consume, hc⟩
    else
      match readSkip t.consume with
      | ⟨r, hr⟩ => ⟨r, hc.trans hr⟩
termination_by s.remaining
decreasing_by
  -- A fault takes characters off the input,
  · have hs := TokenStream.lookahead_spec s
    rw [show s.lookahead = _ from h] at hs
    exact hs.2.2 _he
  -- and a token is consumed.
  · have hs := TokenStream.lookahead_spec s
    rw [show s.lookahead = _ from h] at hs
    have := TokenStream.consumed_consume hs.1
    exact hc.remaining_lt (by omega)

/-- Passes the rest of a statement. -/
def skip : Parser Unit := ⟨fun s => (readSkip s).1, fun s => (readSkip s).2⟩

end Parser

end FlatQuery

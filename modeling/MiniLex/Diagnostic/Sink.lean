import MiniLex.Diagnostic.Basic

/-!
# Where diagnostics go

Whoever scans a text says where its diagnostics go: into a list, onto a channel as lines of text, or nowhere. A sink takes
one diagnostic after the other and is told once the text has been scanned to its end. What a sink makes of a scan is
determined by the events it receives, in their order (`Sink.feed`).
-/

namespace MiniLex

/-- What a sink receives: a diagnostic, or the word that a scan has reached the end of the text. -/
inductive Event where
  | diagnostic (d : Diagnostic)
  | flush
  deriving DecidableEq

/-- A receiver of diagnostics: what becomes of its state with each event. -/
structure Sink (σ : Type) where
  handle : σ → Diagnostic → σ
  flush : σ → σ

/-- A channel for text. Text can be held back until the channel is flushed. A channel that fails keeps what it holds back. -/
structure Channel where
  /-- What the channel says when it fails, if it does. -/
  failure : Option String
  /-- The text that has gone through. -/
  received : String
  /-- The text that is held back. -/
  pending : String
  deriving DecidableEq

namespace Channel

/-- A channel through which nothing has gone yet. -/
def fresh (failure : Option String) : Channel := ⟨failure, "", ""⟩

/-- Puts text on a channel, where it is held back. -/
def write (c : Channel) (text : String) : Channel := ⟨c.failure, c.received, c.pending ++ text⟩

/-- Puts text through a channel at once, unless the channel fails. -/
def put (c : Channel) (text : String) : Channel :=
  match c.failure with
  | none => ⟨none, c.received ++ text, c.pending⟩
  | some _ => c

/-- Sends what is held back, unless the channel fails. -/
def flush (c : Channel) : Channel :=
  match c.failure with
  | none => ⟨none, c.received ++ c.pending, ""⟩
  | some _ => c

/-- The text that went through a channel, or what the channel says if some of its text did not. -/
def close (c : Channel) : Except String String :=
  let c := c.flush
  match c.failure with
  | none => .ok c.received
  | some reason => if c.pending.isEmpty then .ok c.received else .error reason

end Channel

namespace Sink

/-- What becomes of a sink's state with one event. -/
def receive {σ : Type} (sink : Sink σ) (state : σ) : Event → σ
  | .diagnostic d => sink.handle state d
  | .flush => sink.flush state

/-- What becomes of a sink's state with several events. -/
def feed {σ : Type} (sink : Sink σ) (state : σ) (events : List Event) : σ := events.foldl sink.receive state

/-- The sink that keeps every diagnostic, in order. -/
def collector : Sink (List Diagnostic) := ⟨fun kept d => kept ++ [d], id⟩

/-- The sink that drops every diagnostic. -/
def silent : Sink Unit := ⟨fun state _ => state, id⟩

/-- The sink that puts every diagnostic on a channel as one line, and flushes the channel at the end. -/
def lines : Sink Channel := ⟨fun c d => c.write (d.render ++ "\n"), Channel.flush⟩

end Sink

end MiniLex

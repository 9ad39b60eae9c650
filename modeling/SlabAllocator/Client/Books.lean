import SlabAllocator.Hook

/-! The books of a client say which blocks of the arena are in its hands. Its recovery hooks
share them: a hook that would pass on anything else leaves without an answer, so a run in
which no hook leaves is one in which all of them kept to the contract. -/

namespace SlabAllocator

/-- The length of the block behind a request: whole pages, at least one. -/
def pageBytes (pageSize size : Nat) : Nat :=
  (max size 1 + pageSize - 1) / pageSize * pageSize

/-- A block of the arena in the hands of the client, with the size it was last obtained
with. A ticket is given out once. -/
structure Holding where
  ticket : Nat
  addr : Addr
  size : Nat
  deriving DecidableEq

/-- A deed of a hook that is not finished yet. -/
inductive Errand where
  | acquire (size : Nat)
  | resize (block : Holding) (newSize : Nat)
  | other

structure Books (ω : Type) where
  /-- What the client shares with its hooks. -/
  env : ω
  held : List Holding
  /-- The ticket of the next holding. -/
  tickets : Nat
  /-- The deeds in progress, the innermost first. -/
  errands : List Errand
  intent : Deed
  answer : Option Addr

namespace Books

def new (env : ω) : Books ω :=
  ⟨env, [], 0, [], .pass, none⟩

/-- Enters a block that was obtained with this size. -/
def gain (books : Books ω) (size : Nat) (addr : Addr) : Books ω :=
  { books with held := ⟨books.tickets, addr, size⟩ :: books.held, tickets := books.tickets + 1 }

/-- The holding of a block, given the size it was last obtained with. -/
def find? (books : Books ω) (size : Nat) (addr : Addr) : Option Holding :=
  books.held.find? fun block => block.size == size && block.addr == addr

def drop (books : Books ω) (block : Holding) : Books ω :=
  { books with held := books.held.erase block }

def restore (books : Books ω) (block : Holding) : Books ω :=
  { books with held := block :: books.held }

def intend (books : Books ω) (intent : Deed) : Books ω :=
  { books with intent }

def undertake (books : Books ω) (errand : Errand) (deed : Deed) : Books ω :=
  { books with errands := errand :: books.errands, intent := deed }

/-- Begins a deed. A block that it passes back is out of the client's hands until the deed
is done. -/
def begin (books : Books ω) (deed : Deed) : Books ω :=
  match deed with
  | .acquire size => books.undertake (.acquire size) deed
  | .resize oldSize addr newSize =>
    match books.find? oldSize addr with
    | some block => (books.drop block).undertake (.resize block newSize) deed
    | none => books.intend .unwind
  | .release size addr =>
    match books.find? size addr with
    | some block => (books.drop block).undertake .other deed
    | none => books.intend .unwind
  | .supply .. | .unwind => books.intend .unwind
  | .pass | .take | .probe => books.undertake .other deed

/-- Finishes the innermost deed. -/
def finish (books : Books ω) (reply : Reply) : Books ω :=
  match books.errands with
  | [] => books
  | errand :: errands =>
    let books := { books with errands }
    match errand, reply with
    | .acquire size, .block (some addr) => books.gain size addr
    | .resize _ newSize, .block (some addr) => books.gain newSize addr
    | .resize block _, _ => books.restore block
    | _, _ => books

/-- Passes on the answer of a hook: no block, or one in its hands that is as long as the one
that was denied. -/
def conclude (books : Books ω) (pageSize requested : Nat) (answer : Option Addr) : Books ω :=
  match answer with
  | none => { books with intent := .pass, answer := none }
  | some addr =>
    let fitting := books.held.find? fun block =>
      block.addr == addr && pageBytes pageSize block.size == pageBytes pageSize requested
    match fitting with
    | some block => { books.drop block with intent := .pass, answer := some addr }
    | none => books.intend .unwind

def change (books : Books ω) (f : ω → ω) : Books ω :=
  { books with env := f books.env }

end Books

mutual

/-- The program of a hook, checked against the books at each step. -/
def Program.audited (pageSize : Nat) : Program ω → Program (Books ω)
  | .answer choose =>
    .record (fun requested books => books.conclude pageSize requested (choose books.env)) <|
    .perform (fun _ books => books.intent) (fun _ books => books) <|
    .answer fun books => books.answer
  | .perform choose learn next =>
    .record (fun requested books => books.begin (choose requested books.env)) <|
    .perform (fun _ books => books.intent) (fun reply books => (books.finish reply).change (learn reply)) <|
    next.audited pageSize
  | .record change next =>
    .record (fun requested books => books.change (change requested)) (next.audited pageSize)
  | .branch test yes no =>
    .branch (fun books => test books.env) (yes.audited pageSize) (no.audited pageSize)
  | .install programs next => .install (Program.auditedAll pageSize programs) (next.audited pageSize)

def Program.auditedAll (pageSize : Nat) : List (Program ω) → List (Program (Books ω))
  | [] => []
  | program :: rest => program.audited pageSize :: Program.auditedAll pageSize rest

end

end SlabAllocator

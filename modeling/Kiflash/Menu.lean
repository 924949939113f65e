import Kiflash.Images
import Kiflash.Imperative.Scanf

/-!
# The menu of `kiflashcmd`

`main` of `kiflashcmd` prints a menu, reads a number with `scanf`, does what the number stands
for, and begins again.  It ignores what `scanf` returns, so a conversion without a value
leaves the variable as it was; `choice` and most of the arguments are locals of the block that
nothing has stored to.

* `Console` — the state of the process with what is left of its standard input.
* `Locals` — what the locals of one round of the menu hold beforehand: anything.
* one definition for each `case`, named after its line of the menu.
* `menu`, `main` — as many rounds as there are `Locals` in a list.

### The log

The log records what the statements about the menu speak of: the characters that each
conversion takes, the commands that change or verify the flash or reboot the device, at the
moment they are begun, and the messages about failures and bad numbers, as format strings.
The other output and the measured times are left out.

### Locals that hold anything

C leaves the contents of an automatic variable open until something is stored to it.  A round
gets them as an argument, so that a statement for all lists of `Locals` is one for everything
that the stack can hold; the rounds need not find the same.  `Status` and the static variables
are kept from round to round, as in the source.

### The standard input ends nowhere

An input that is used up makes every further conversion fail, and the menu goes round for ever
without taking a character.  The number of rounds is therefore bounded from outside, by the
length of the list.
-/

open Imperative Imperative.Prog

namespace Kiflash.Cmd

/-- A command of the menu that erases, programs, writes, verifies or reboots.  The others only
look at the device or change a path. -/
inductive Command where
  | reimage
  | golden
  | user
  | timer (timerid : UInt32)
  | icap (die : UInt32)
  | erase (die : UInt32)
  | download (die : UInt32)
  | verify (kind : UInt32)
  | sectorErase (addr : UInt32)
  | write (addr : UInt32)
  deriving DecidableEq, Repr

/-- An entry of the log: what `main` has taken off its input, which commands it has carried
out, and what it has said about failures. -/
inductive MenuEvent where
  /-- The characters taken for `choice`. -/
  | choice (token : List Char)
  /-- The characters taken for `input_deci_data`. -/
  | argument (token : List Char)
  /-- The characters taken for a path or a file name. -/
  | name (token : List Char)
  | command (command : Command)
  | report (text : String)
  deriving DecidableEq, Repr

/-- The characters that an entry has taken off the standard input.  Commands and reports have
taken none. -/
def MenuEvent.token : MenuEvent → List Char
  | choice token => token
  | argument token => token
  | name token => token
  | command _ => []
  | report _ => []

/-- The process: the static variables, `Status` of `main`, what is left of the standard input,
and the log. -/
structure Console (σ : Type) where
  world : World σ
  status : Xst
  input : List Char
  log : List MenuEvent

/-- A process that has been started on this input.  Nothing has been read.  `Status` is
assigned before anything looks at it, so its value here does not matter. -/
def Console.start {σ : Type} (world : World σ) (input : List Char) : Console σ where
  world := world
  status := .success
  input := input
  log := []

/-- What `main` meets and does not change.  The sweep over the PCI memory is a parameter here,
as it goes past the functions of the flash. -/
structure Host (σ : Type) where
  env : Env
  /-- The answer of `getcwd`. -/
  getcwd : Option String
  /-- `PciSweep`, which reads the PCI memory behind the driver. -/
  pciSweep : UInt32 → Prog σ Xst

section Steps

variable {σ α : Type}

/-- A call of a function of `flash_qspi_rw.c`.  It changes the world and leaves input and log
alone. -/
def call (m : Prog (World σ) α) : Prog (Console σ) α := fun c =>
  ((m c.world).1, { c with world := (m c.world).2 })

/-- Add an entry to the log.  Entries are only added at the end. -/
def record (e : MenuEvent) : Prog (Console σ) Unit :=
  .modify fun c => { c with log := c.log ++ [e] }

/-- `Status = m`, which the messages behind it look at. -/
def assign (m : Prog (World σ) Xst) : Prog (Console σ) Unit :=
  call m >>= fun status => .modify fun c => { c with status }

/-- `if (Status != XST_SUCCESS) printf(text)`, after an option that has a message. -/
def reportFailure (text : String) : Prog (Console σ) Unit :=
  Prog.gets (·.status) >>= fun status =>
    if status ≠ .success then record (.report text) else pure ()

/-- Begin a command.  The entry is made before the first step, so a command that does not end
is in the log as well. -/
def execute (command : Command) (body : Prog (Console σ) Unit) : Prog (Console σ) Unit :=
  record (.command command) >>= fun _ => body

/-- A call of a function of the library touches the static variables only. -/
theorem wp_call {m : Prog (World σ) α} {Q : α → Console σ → Prop} {R : Stop → Console σ → Prop}
    {c : Console σ} :
    wp (call m) Q R c ↔
      wp m (fun a world => Q a { c with world }) (fun why world => R why { c with world })
        c.world := by
  rcases hm : m c.world with ⟨a | why, world⟩ <;> simp [wp, call, hm]

/-- An assignment of its status. -/
theorem wp_assign {m : Prog (World σ) Xst} {Q : Unit → Console σ → Prop}
    {R : Stop → Console σ → Prop} {c : Console σ} :
    wp (assign m) Q R c ↔
      wp m (fun status world => Q () { c with world, status })
        (fun why world => R why { c with world }) c.world := by
  rw [assign, wp_bind, wp_call]
  rfl

/-- The test of `Status`, by what it finds. -/
theorem wp_reportFailure {text : String} {Q : Unit → Console σ → Prop}
    {R : Stop → Console σ → Prop} {c : Console σ} :
    wp (reportFailure text) Q R c ↔
      (c.status = .success → Q () c) ∧
        (c.status ≠ .success → Q () { c with log := c.log ++ [.report text] }) := by
  rw [reportFailure, wp_bind, wp_gets, wp_ite, not_not, and_comm]
  rfl

end Steps

/-! ## The lines of the menu -/

section Options

variable {σ : Type} [XSpiDriver σ] (host : Host σ)

/-- The static `Address`, which no function of the file changes. -/
def address : UInt32 := 0

/-- ` 10: Program (*.bin)`, behind the die number -/
def programBin (die : UInt32) : Prog (Console σ) Unit :=
  execute (.download die) (assign (downloadSerialDataToQSPIFlash host.env die))

/-- ` 14: Verify (*.bin)`, behind the number of the image -/
def verifyBin (kind : UInt32) : Prog (Console σ) Unit :=
  if kind = 1 then
    execute (.verify kind) do
      call (selectRegion .golden)
      assign (qspiVerifyBin host.env)
      reportFailure "verify_golden failed at verify\n"
  else if kind = 2 then
    execute (.verify kind) do
      call (selectRegion .user)
      assign (qspiVerifyBin host.env)
      reportFailure "verify_user failed at verify\n"
  else if kind = 3 then
    execute (.verify kind) do
      call (selectRegion .timer1)
      assign (qspiVerifyBin host.env)
      reportFailure "verify_timer1 failed at verify\n"
  else if kind = 4 then
    execute (.verify kind) do
      -- no verification here: the test is about what an earlier command has left
      call (selectRegion .timer2)
      reportFailure "verify_timer2 failed at verify\n"
  else record (.report "Invalid verify destination specified\n")

/-- `kiflash_init` of `kiflashcmd`. -/
def kiflashInit : Prog (World σ) Xst := do
  Prog.modify fun w =>
    { w with
      flashData :=
        { w.flashData with baseAddr := 0, eraseStartAddr := 0, eraseEndAddr := 0, filename := "" } }
  match host.getcwd with
  | none => pure .failure
  | some path => do
    Prog.modify fun w => { w with flashData := { w.flashData with path } }
    pure .success

/-- What `main` does before its loop: what it returns if it does not get there. -/
def startup : Prog (Console σ) (Option Xst) := do
  assign (kiflashInit host)
  reportFailure "\n\rfailed at kiflash_init\n\r"
  let status ← Prog.gets (·.status)
  if status ≠ .success then pure (some .failure)
  else do
    call (pcimemInit host.env)
    assign (ensureInit host.env)
    let status ← Prog.gets (·.status)
    pure (if status ≠ .success then some .failure else none)

end Options

end Kiflash.Cmd

import FuturesDesk.Program

/-! Conversations with programs. Whoever answers a program's questions holds a conversation with it;
a program yields its result at the end of one, or asks its next question in the middle of one. Both
are compositional: a conversation with a sequence of programs is one with each of them in turn. -/
namespace FuturesDesk.Program

variable {Q : Type} {Answer : Q → Type} {α β : Type}

theorem bind_done (p : Program Q Answer α) : (p >>= fun a => .done a) = p := by
  induction p with
  | done a => rfl
  | fault c => rfl
  | ask q next ih =>
    rw [ask_bind]
    congr 1
    funext answer
    exact ih answer

theorem bind_assoc {γ : Type} (p : Program Q Answer α) (f : α → Program Q Answer β)
    (g : β → Program Q Answer γ) : p >>= f >>= g = p >>= fun a => f a >>= g := by
  induction p with
  | done a => rfl
  | fault c => rfl
  | ask q next ih =>
    simp only [ask_bind]
    congr 1
    funext answer
    exact ih answer

instance : LawfulMonad (Program Q Answer) :=
  LawfulMonad.mk' _ bind_done (fun _ _ => rfl) bind_assoc

abbrev Exchange (Answer : Q → Type) : Type := (q : Q) × Answer q

/-- The program ends with a result after a conversation. A program that faults never does. -/
def Yields : Program Q Answer α → List (Exchange Answer) → α → Prop
  | done a, talk, result => talk = [] ∧ a = result
  | fault _, _, _ => False
  | ask q next, talk, result =>
    ∃ answer rest, talk = ⟨q, answer⟩ :: rest ∧ (next answer).Yields rest result

def Asks : Program Q Answer α → List (Exchange Answer) → Q → Prop
  | done _, _, _ => False
  | fault _, _, _ => False
  | ask q next, talk, r =>
    (talk = [] ∧ q = r) ∨
      ∃ answer rest, talk = ⟨q, answer⟩ :: rest ∧ (next answer).Asks rest r

def Faults : Program Q Answer α → List (Exchange Answer) → Decimal.Fault → Prop
  | done _, _, _ => False
  | fault c, talk, d => talk = [] ∧ c = d
  | ask q next, talk, d =>
    ∃ answer rest, talk = ⟨q, answer⟩ :: rest ∧ (next answer).Faults rest d

/-- The conversation so far with a program, which may ask more or be over. -/
def Holds : Program Q Answer α → List (Exchange Answer) → Prop
  | done _, talk => talk = []
  | fault _, talk => talk = []
  | ask q next, talk =>
    talk = [] ∨ ∃ answer rest, talk = ⟨q, answer⟩ :: rest ∧ (next answer).Holds rest

/-- Whatever the answers are, every question of the program has the property. -/
def Only (P : Q → Prop) : Program Q Answer α → Prop
  | done _ => True
  | fault _ => True
  | ask q next => P q ∧ ∀ answer, (next answer).Only P

section
variable {talk : List (Exchange Answer)} {q r : Q} {a result : α} {b : β}
  {p : Program Q Answer α} {f : α → Program Q Answer β} {next : Answer q → Program Q Answer α}

@[simp] theorem yields_done : (done a : Program Q Answer α).Yields talk result ↔
    talk = [] ∧ a = result := Iff.rfl

@[simp] theorem yields_fault {c : Decimal.Fault} :
    ¬ (fault c : Program Q Answer α).Yields talk result := fun h => h

@[simp] theorem yields_ask : (ask q next).Yields talk result ↔
    ∃ answer rest, talk = ⟨q, answer⟩ :: rest ∧ (next answer).Yields rest result := Iff.rfl

@[simp] theorem yields_ofExcept {e : Except Decimal.Fault α} :
    (ofExcept e : Program Q Answer α).Yields talk result ↔ talk = [] ∧ e = .ok result := by
  cases e <;> simp [ofExcept]

theorem yields_bind : (p >>= f).Yields talk b ↔
    ∃ first a rest, talk = first ++ rest ∧ p.Yields first a ∧ (f a).Yields rest b := by
  induction p generalizing talk with
  | done a =>
    constructor
    · intro followed
      exact ⟨[], a, talk, rfl, ⟨rfl, rfl⟩, followed⟩
    · rintro ⟨_, _, rest, rfl, ⟨rfl, rfl⟩, followed⟩
      exact followed
  | fault c => simp
  | ask q next ih =>
    simp only [ask_bind, yields_ask, ih]
    constructor
    · rintro ⟨answer, _, rfl, first, a, rest, rfl, asked, followed⟩
      exact ⟨⟨q, answer⟩ :: first, a, rest, rfl, ⟨answer, first, rfl, asked⟩, followed⟩
    · rintro ⟨_, a, rest, rfl, ⟨answer, first, rfl, asked⟩, followed⟩
      exact ⟨answer, first ++ rest, rfl, first, a, rest, rfl, asked, followed⟩

@[simp] theorem asks_done : ¬ (done a : Program Q Answer α).Asks talk r := fun h => h

@[simp] theorem asks_fault {c : Decimal.Fault} :
    ¬ (fault c : Program Q Answer α).Asks talk r := fun h => h

@[simp] theorem asks_ask : (ask q next).Asks talk r ↔
    (talk = [] ∧ q = r) ∨
      ∃ answer rest, talk = ⟨q, answer⟩ :: rest ∧ (next answer).Asks rest r := Iff.rfl

@[simp] theorem asks_ofExcept {e : Except Decimal.Fault α} :
    ¬ (ofExcept e : Program Q Answer α).Asks talk r := by
  cases e <;> simp [ofExcept]

theorem asks_bind : (p >>= f).Asks talk r ↔
    p.Asks talk r ∨
      ∃ first a rest, talk = first ++ rest ∧ p.Yields first a ∧ (f a).Asks rest r := by
  induction p generalizing talk with
  | done a =>
    constructor
    · intro asked
      exact .inr ⟨[], a, talk, rfl, ⟨rfl, rfl⟩, asked⟩
    · rintro (never | ⟨_, _, rest, rfl, ⟨rfl, rfl⟩, asked⟩)
      · exact never.elim
      · exact asked
  | fault c => simp
  | ask q next ih =>
    simp only [ask_bind, asks_ask, yields_ask, ih]
    constructor
    · rintro (first | ⟨answer, _, rfl, asked | ⟨first, a, rest, rfl, ended, asked⟩⟩)
      · exact .inl (.inl first)
      · exact .inl (.inr ⟨answer, _, rfl, asked⟩)
      · exact .inr ⟨⟨q, answer⟩ :: first, a, rest, rfl, ⟨answer, first, rfl, ended⟩, asked⟩
    · rintro ((first | ⟨answer, rest, rfl, asked⟩) |
        ⟨_, a, rest, rfl, ⟨answer, first, rfl, ended⟩, asked⟩)
      · exact .inl first
      · exact .inr ⟨answer, rest, rfl, .inl asked⟩
      · exact .inr ⟨answer, first ++ rest, rfl, .inr ⟨first, a, rest, rfl, ended, asked⟩⟩

@[simp] theorem faults_done {d : Decimal.Fault} :
    ¬ (done a : Program Q Answer α).Faults talk d := fun h => h

@[simp] theorem faults_ask {d : Decimal.Fault} : (ask q next).Faults talk d ↔
    ∃ answer rest, talk = ⟨q, answer⟩ :: rest ∧ (next answer).Faults rest d := Iff.rfl

@[simp] theorem faults_ofExcept {e : Except Decimal.Fault α} {d : Decimal.Fault} :
    (ofExcept e : Program Q Answer α).Faults talk d ↔ talk = [] ∧ e = .error d := by
  cases e <;> simp [ofExcept, Faults]

theorem faults_bind {d : Decimal.Fault} : (p >>= f).Faults talk d ↔
    p.Faults talk d ∨
      ∃ first a rest, talk = first ++ rest ∧ p.Yields first a ∧ (f a).Faults rest d := by
  induction p generalizing talk with
  | done a =>
    constructor
    · intro faulted
      exact .inr ⟨[], a, talk, rfl, ⟨rfl, rfl⟩, faulted⟩
    · rintro (never | ⟨_, _, rest, rfl, ⟨rfl, rfl⟩, faulted⟩)
      · exact never.elim
      · exact faulted
  | fault c => simp [Faults]
  | ask q next ih =>
    simp only [ask_bind, faults_ask, yields_ask, ih]
    constructor
    · rintro ⟨answer, _, rfl, faulted | ⟨first, a, rest, rfl, ended, faulted⟩⟩
      · exact .inl ⟨answer, _, rfl, faulted⟩
      · exact .inr ⟨⟨q, answer⟩ :: first, a, rest, rfl, ⟨answer, first, rfl, ended⟩, faulted⟩
    · rintro (⟨answer, rest, rfl, faulted⟩ |
        ⟨_, a, rest, rfl, ⟨answer, first, rfl, ended⟩, faulted⟩)
      · exact ⟨answer, rest, rfl, .inl faulted⟩
      · exact ⟨answer, first ++ rest, rfl, .inr ⟨first, a, rest, rfl, ended, faulted⟩⟩

/-- A conversation so far has one of three continuations. -/
theorem holds_cases (held : p.Holds talk) :
    (∃ a, p.Yields talk a) ∨ (∃ q, p.Asks talk q) ∨ ∃ d, p.Faults talk d := by
  induction p generalizing talk with
  | done a => exact .inl ⟨a, held, rfl⟩
  | fault c => exact .inr (.inr ⟨c, held, rfl⟩)
  | ask q next ih =>
    obtain rfl | ⟨answer, rest, rfl, later⟩ := held
    · exact .inr (.inl ⟨q, .inl ⟨rfl, rfl⟩⟩)
    · obtain ⟨a, ended⟩ | ⟨r, asked⟩ | ⟨d, faulted⟩ := ih answer later
      · exact .inl ⟨a, answer, rest, rfl, ended⟩
      · exact .inr (.inl ⟨r, .inr ⟨answer, rest, rfl, asked⟩⟩)
      · exact .inr (.inr ⟨d, answer, rest, rfl, faulted⟩)

theorem holds_nil : p.Holds [] := by
  cases p with
  | done => exact rfl
  | fault => exact rfl
  | ask => exact .inl rfl

theorem holds_bind : (p >>= f).Holds talk ↔
    p.Holds talk ∨ ∃ first a rest, talk = first ++ rest ∧ p.Yields first a ∧ (f a).Holds rest := by
  induction p generalizing talk with
  | done a =>
    constructor
    · intro held
      exact .inr ⟨[], a, talk, rfl, ⟨rfl, rfl⟩, held⟩
    · rintro (rfl | ⟨_, _, rest, rfl, ⟨rfl, rfl⟩, held⟩)
      · exact holds_nil
      · exact held
  | fault c =>
    constructor
    · exact .inl
    · rintro (held | ⟨_, _, _, _, never, _⟩)
      · exact held
      · exact never.elim
  | ask q next ih =>
    constructor
    · rintro (rfl | ⟨answer, _, rfl, held⟩)
      · exact .inl (.inl rfl)
      · obtain before | ⟨first, a, rest, rfl, ended, held⟩ := ih answer |>.mp held
        · exact .inl (.inr ⟨answer, _, rfl, before⟩)
        · exact .inr ⟨⟨q, answer⟩ :: first, a, rest, rfl, ⟨answer, first, rfl, ended⟩, held⟩
    · rintro ((rfl | ⟨answer, _, rfl, held⟩) |
        ⟨_, a, rest, rfl, ⟨answer, first, rfl, ended⟩, held⟩)
      · exact .inl rfl
      · exact .inr ⟨answer, _, rfl, (ih answer).mpr (.inl held)⟩
      · have later := (ih answer).mpr (.inr ⟨first, a, rest, rfl, ended, held⟩)
        exact .inr ⟨answer, first ++ rest, rfl, later⟩

theorem Yields.holds (ended : p.Yields talk a) : p.Holds talk := by
  induction p generalizing talk with
  | done => exact ended.1
  | fault => exact ended.elim
  | ask q next ih =>
    obtain ⟨answer, rest, rfl, ended⟩ := ended
    exact .inr ⟨answer, rest, rfl, ih answer ended⟩

/-- A conversation with a program that has no place to fault can be brought to its end, by answers of
any kind that is open to every question. -/
theorem Holds.completes {Open : Exchange Answer → Prop} (answerable : ∀ q, ∃ a, Open ⟨q, a⟩)
    (faultless : ∀ talk cause, ¬ p.Faults talk cause) (held : p.Holds talk) :
    ∃ rest a, (∀ x ∈ rest, Open x) ∧ p.Yields (talk ++ rest) a := by
  induction p generalizing talk with
  | done a =>
    obtain rfl : talk = [] := held
    exact ⟨[], a, by simp, rfl, rfl⟩
  | fault c => exact (faultless [] c ⟨rfl, rfl⟩).elim
  | ask q next ih =>
    have later : ∀ answer talk cause, ¬ (next answer).Faults talk cause := by
      intro answer talk cause faulted
      exact faultless (⟨q, answer⟩ :: talk) cause ⟨answer, talk, rfl, faulted⟩
    obtain rfl | ⟨answer, begun, rfl, held⟩ := held
    · obtain ⟨answer, ok⟩ := answerable q
      obtain ⟨rest, a, all, ended⟩ := ih answer (later answer) holds_nil
      exact ⟨⟨q, answer⟩ :: rest, a, List.forall_mem_cons.mpr ⟨ok, all⟩, answer, rest, rfl, ended⟩
    · obtain ⟨rest, a, all, ended⟩ := ih answer (later answer) held
      exact ⟨rest, a, all, answer, begun ++ rest, rfl, ended⟩

variable {P : Q → Prop}

theorem Only.bind (first : p.Only P) (then_ : ∀ a, (f a).Only P) : (p >>= f).Only P := by
  induction p with
  | done a => exact then_ a
  | fault => exact trivial
  | ask q next ih => exact ⟨first.1, fun answer => ih answer (first.2 answer)⟩

theorem Only.of_mem (only : p.Only P) (held : p.Holds talk) : ∀ x ∈ talk, P x.1 := by
  induction p generalizing talk with
  | done => simp [show talk = [] from held]
  | fault => simp [show talk = [] from held]
  | ask q next ih =>
    obtain rfl | ⟨answer, rest, rfl, later⟩ := held
    · simp
    · intro x member
      rcases List.mem_cons.mp member with rfl | member
      · exact only.1
      · exact ih answer (only.2 answer) later x member

end

/-- A conversation that takes whoever answers from one state to another, a step at every exchange. -/
inductive Path {σ : Type} (step : σ → Exchange Answer → σ → Prop) :
    σ → List (Exchange Answer) → σ → Prop where
  | nil {s : σ} : Path step s [] s
  | cons {s t u : σ} {x : Exchange Answer} {talk : List (Exchange Answer)} (first : step s x t)
      (rest : Path step t talk u) : Path step s (x :: talk) u

section
variable {σ R : Type} {Reply : R → Type} {s t : σ}

theorem path_append {step : σ → Exchange Answer → σ → Prop} {first rest : List (Exchange Answer)} :
    Path step s (first ++ rest) t ↔
      ∃ middle, Path step s first middle ∧ Path step middle rest t := by
  induction first generalizing s with
  | nil =>
    constructor
    · intro path
      exact ⟨s, .nil, path⟩
    · rintro ⟨_, ⟨⟩, path⟩
      exact path
  | cons x first ih =>
    constructor
    · rintro (_ | ⟨moved, path⟩)
      obtain ⟨middle, before, after⟩ := ih.mp path
      exact ⟨middle, .cons moved before, after⟩
    · rintro ⟨middle, _ | ⟨moved, before⟩, after⟩
      exact .cons moved (ih.mpr ⟨middle, before, after⟩)

theorem Path.single {step : σ → Exchange Answer → σ → Prop} {x : Exchange Answer}
    (path : Path step s [x] t) : step s x t := by
  cases path with
  | cons moved rest =>
    cases rest
    exact moved

variable {step : σ → Exchange Reply → σ → Prop} {answer : (q : Q) → Program R Reply (Answer q)}

/-- One exchange, carried out by a program of its own. -/
def Through (step : σ → Exchange Reply → σ → Prop)
    (answer : (q : Q) → Program R Reply (Answer q)) (s : σ) (x : Exchange Answer) (t : σ) : Prop :=
  ∃ inner, (answer x.1).Yields inner x.2 ∧ Path step s inner t

theorem question_path {r : R} {reply : Reply r} :
    (∃ inner, (question r : Program R Reply (Reply r)).Yields inner reply ∧ Path step s inner t) ↔
      step s ⟨r, reply⟩ t := by
  constructor
  · rintro ⟨_, ⟨_, _, rfl, rfl, rfl⟩, path⟩
    exact path.single
  · intro moved
    exact ⟨[⟨r, reply⟩], ⟨reply, [], rfl, rfl, rfl⟩, .cons moved .nil⟩

/-- A conversation with an expanded program is one with the program, each exchange of it carried out
by a conversation of its own. -/
theorem path_expand {p : Program Q Answer α} {result : α} :
    (∃ talk, (p.expand answer).Yields talk result ∧ Path step s talk t) ↔
      ∃ outer, p.Yields outer result ∧ Path (Through step answer) s outer t := by
  induction p generalizing s with
  | done a =>
    constructor
    · rintro ⟨_, ⟨rfl, rfl⟩, ⟨⟩⟩
      exact ⟨[], ⟨rfl, rfl⟩, .nil⟩
    · rintro ⟨_, ⟨rfl, rfl⟩, ⟨⟩⟩
      exact ⟨[], ⟨rfl, rfl⟩, .nil⟩
  | fault c =>
    constructor <;> rintro ⟨_, never, _⟩ <;> exact never.elim
  | ask q next ih =>
    constructor
    · rintro ⟨talk, ended, path⟩
      obtain ⟨first, a, rest, rfl, asked, ended⟩ := yields_bind.mp ended
      obtain ⟨middle, before, after⟩ := path_append.mp path
      obtain ⟨outer, yields, path⟩ := (ih a).mp ⟨rest, ended, after⟩
      exact ⟨⟨q, a⟩ :: outer, ⟨a, outer, rfl, yields⟩, .cons ⟨first, asked, before⟩ path⟩
    · rintro ⟨_, ⟨a, outer, rfl, yields⟩, _ | ⟨⟨first, asked, before⟩, path⟩⟩
      obtain ⟨rest, ended, after⟩ := (ih a).mpr ⟨outer, yields, path⟩
      exact ⟨first ++ rest, yields_bind.mpr ⟨first, a, rest, rfl, asked, ended⟩,
        path_append.mpr ⟨_, before, after⟩⟩

theorem Only.expand {P : Q → Prop} {P' : R → Prop} {p : Program Q Answer α} (only : p.Only P)
    (each : ∀ q, P q → (answer q).Only P') : (p.expand answer).Only P' := by
  induction p with
  | done => trivial
  | fault => trivial
  | ask q next ih => exact (each q only.1).bind fun a => ih a (only.2 a)

end

end FuturesDesk.Program

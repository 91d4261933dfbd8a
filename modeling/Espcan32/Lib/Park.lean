import Mathlib.Tactic.Common

/-!
# Parking on request

A requester announces a cycle by writing its number into a word that two tasks poll.  A task that
sees an open cycle enters its park loop, where it echoes the number it saw into its own
acknowledgement word, and which it leaves once it finds the cycle closed.  The requester waits
until it has seen the echoes of both, or gives up; it ends the cycle with the next number.

The numbers are of any type; `isOpen` says which of them ask for parking, `next` comes after a
number, and `num` counts them for as long as they do not wrap.

* `Parking.Answers` : if the task has echoed the current number, then it is in its park loop.
* `Handshake` : what holds between the requester and the two tasks; `Handshake.first`, `second`
  and `request` keep it, if no cycle reuses a number that an acknowledgement still shows.
* `Steady` : a task that has echoed the number waited for stays in its park loop and keeps the echo.
* `Numbered` : the numbers in use are at most the current one; before they wrap, none is reused.
-/

namespace Espcan32

/-- Where a task is with respect to its park loop. -/
inductive Place (W : Type*) where
  /-- Outside. -/
  | out
  /-- Inside, about to echo a number. -/
  | echo (cycle : W)
  /-- Inside, behind the echo. -/
  | parked
  deriving DecidableEq, Repr

/-- A task's acknowledgement word and its place. -/
structure Parking (W : Type*) where
  ack : W
  place : Place W

namespace Parking

variable {W : Type*} {isOpen : W → Prop} {seq : W} {p p' : Parking W}

/-- The moves of a task while the word of the requester is `seq`. -/
inductive Move (isOpen : W → Prop) (seq : W) : Parking W → Parking W → Prop
  | work {a : W} : Move isOpen seq ⟨a, .out⟩ ⟨a, .out⟩
  | enter {a : W} : isOpen seq → Move isOpen seq ⟨a, .out⟩ ⟨a, .echo seq⟩
  | echo {a c : W} : Move isOpen seq ⟨a, .echo c⟩ ⟨c, .parked⟩
  | again {a : W} : isOpen seq → Move isOpen seq ⟨a, .parked⟩ ⟨a, .echo seq⟩
  | leave {a : W} : ¬ isOpen seq → Move isOpen seq ⟨a, .parked⟩ ⟨a, .out⟩

/-- Whatever a task does outside its park loop. -/
theorem Move.of_out (h : p.place = .out) (h' : p'.place = .out) (hack : p'.ack = p.ack) :
    Move isOpen seq p p' := by
  obtain ⟨a, pl⟩ := p
  obtain ⟨a', pl'⟩ := p'
  dsimp only at h h' hack
  subst h h' hack
  exact .work

/-- The task is in its park loop. -/
def Inside (p : Parking W) : Prop := p.place ≠ .out

/-- If the task has echoed `seq`, then it is in its park loop. -/
def Answers (seq : W) (p : Parking W) : Prop := p.ack = seq → p.Inside

/-- A parked task stays in its loop while the request is open. -/
theorem Inside.move (h : p.Inside) (ho : isOpen seq) (hm : Move isOpen seq p p') : p'.Inside := by
  cases hm with
  | work => exact h
  | enter _ => simp [Inside]
  | echo => simp [Inside]
  | again _ => simp [Inside]
  | leave hc => exact absurd ho hc

/-- An echo of an open request is a promise the task keeps. -/
theorem Answers.move (h : p.Answers seq) (ho : isOpen seq) (hm : Move isOpen seq p p') :
    p'.Answers seq := by
  intro hack
  cases hm with
  | work => exact h hack
  | enter _ => simp [Inside]
  | echo => simp [Inside]
  | again _ => simp [Inside]
  | leave hc => exact absurd ho hc

/-- If the task has echoed `seq`, then it stays in its park loop and echoes nothing else. -/
def Stays (seq : W) (p : Parking W) : Prop :=
  p.ack = seq → p.place = .parked ∨ p.place = .echo seq

/-- Only an open request is echoed from then on. -/
theorem Stays.move (h : p.Stays seq) (ho : isOpen seq) (hm : Move isOpen seq p p') :
    p'.Stays seq := by
  intro hack
  cases hm with
  | work | enter _ =>
    -- outside its loop the task has not echoed it
    rcases h hack with hp | hp <;> cases hp
  | echo => exact .inl rfl
  | again _ => exact .inr rfl
  | leave hc => exact absurd ho hc

/-- The numbers the task has echoed and is about to echo are at most `n`. -/
def AtMost (num : W → ℕ) (n : ℕ) (p : Parking W) : Prop :=
  num p.ack ≤ n ∧ ∀ c, p.place = .echo c → num c ≤ n

variable {num : W → ℕ} {n m : ℕ}

theorem AtMost.mono (h : p.AtMost num n) (hnm : n ≤ m) : p.AtMost num m :=
  ⟨Nat.le_trans h.1 hnm, fun c hc => Nat.le_trans (h.2 c hc) hnm⟩

theorem AtMost.move (h : p.AtMost num n) (hs : num seq ≤ n) (hm : Move isOpen seq p p') :
    p'.AtMost num n := by
  cases hm with
  | work => exact h
  | enter _ =>
    refine ⟨h.1, fun c hc => ?_⟩
    cases hc
    exact hs
  | echo => exact ⟨h.2 _ rfl, fun c hc => by cases hc⟩
  | again _ =>
    refine ⟨h.1, fun c hc => ?_⟩
    cases hc
    exact hs
  | leave _ => exact ⟨h.1, fun c hc => by cases hc⟩

end Parking

/-! ### The requester -/

/-- Where the requester is. -/
inductive Phase (W : Type*) where
  /-- No cycle is open. -/
  | closed
  /-- About to look for the echo of the first task. -/
  | first (cycle : W)
  /-- It has seen the echo of the first task, and is about to look for that of the second. -/
  | second (cycle : W)
  | gaveUp
  /-- It has seen both echoes. -/
  | granted
  deriving DecidableEq, Repr

/-- The number of open cycles. -/
def Phase.opens {W : Type*} : Phase W → ℕ
  | .closed => 0
  | _ => 1

/-- The requester waits for the echoes of `cycle`. -/
def Phase.Waits {W : Type*} (cycle : W) (ph : Phase W) : Prop :=
  ph = .first cycle ∨ ph = .second cycle

variable {W : Type*} {isOpen : W → Prop} {next : W → W} {seq seq' : W} {ph ph' : Phase W}
  {p p' q q' : Parking W}

/-- The moves of the requester, which reads the acknowledgements of `p` and `q`. -/
inductive Phase.Move (next : W → W) (p q : Parking W) : W → Phase W → W → Phase W → Prop
  | stay {seq : W} {ph : Phase W} : Move next p q seq ph seq ph
  | announce {seq : W} : Move next p q seq .closed (next seq) (.first (next seq))
  | first {seq c : W} : p.ack = c → Move next p q seq (.first c) seq (.second c)
  | second {seq c : W} : q.ack = c → Move next p q seq (.second c) seq .granted
  | again {seq c : W} : Move next p q seq (.second c) seq (.first c)
  | timeout₁ {seq c : W} : Move next p q seq (.first c) seq .gaveUp
  | timeout₂ {seq c : W} : Move next p q seq (.second c) seq .gaveUp
  | withdraw {seq : W} : Move next p q seq .gaveUp (next seq) .closed
  | finish {seq : W} : Move next p q seq .granted (next seq) .closed

/-- A wait begins with the announcement of its number. -/
theorem Phase.Move.waits {c : W} (hm : ph.Move next p q seq seq' ph') (hw : ph'.Waits c) :
    ph.Waits c ∨ ph = .closed ∧ c = next seq := by
  cases hm with
  | stay => exact .inl hw
  | announce =>
    rcases hw with hw | hw
    · cases hw; exact .inr ⟨rfl, rfl⟩
    · cases hw
  | first _ =>
    rcases hw with hw | hw
    · cases hw
    · cases hw; exact .inl (.inl rfl)
  | again =>
    rcases hw with hw | hw
    · cases hw; exact .inl (.inr rfl)
    · cases hw
  | second _ | timeout₁ | timeout₂ | withdraw | finish => rcases hw with hw | hw <;> cases hw

/-- What holds between the requester and the tasks. -/
def Handshake (isOpen : W → Prop) (seq : W) (ph : Phase W) (p q : Parking W) : Prop :=
  match ph with
  | .closed => ¬ isOpen seq
  | .first c => isOpen seq ∧ c = seq ∧ p.Answers seq ∧ q.Answers seq
  | .second c => isOpen seq ∧ c = seq ∧ p.Answers seq ∧ q.Answers seq ∧ p.Inside
  | .gaveUp => isOpen seq
  | .granted => isOpen seq ∧ p.Inside ∧ q.Inside

namespace Handshake

/-- A move of the first task. -/
theorem first (h : Handshake isOpen seq ph p q) (hm : p.Move isOpen seq p') :
    Handshake isOpen seq ph p' q := by
  cases ph with
  | closed => exact h
  | first c =>
    obtain ⟨ho, hc, hp, hq⟩ := h
    exact ⟨ho, hc, hp.move ho hm, hq⟩
  | second c =>
    obtain ⟨ho, hc, hp, hq, hin⟩ := h
    exact ⟨ho, hc, hp.move ho hm, hq, hin.move ho hm⟩
  | gaveUp => exact h
  | granted =>
    obtain ⟨ho, hp, hq⟩ := h
    exact ⟨ho, hp.move ho hm, hq⟩

/-- A move of the second task. -/
theorem second (h : Handshake isOpen seq ph p q) (hm : q.Move isOpen seq q') :
    Handshake isOpen seq ph p q' := by
  cases ph with
  | closed => exact h
  | first c =>
    obtain ⟨ho, hc, hp, hq⟩ := h
    exact ⟨ho, hc, hp, hq.move ho hm⟩
  | second c =>
    obtain ⟨ho, hc, hp, hq, hin⟩ := h
    exact ⟨ho, hc, hp, hq.move ho hm, hin⟩
  | gaveUp => exact h
  | granted =>
    obtain ⟨ho, hp, hq⟩ := h
    exact ⟨ho, hp, hq.move ho hm⟩

/-- A move of the requester that announces no number an acknowledgement still shows. -/
theorem request (hnext : ∀ c, isOpen (next c) ↔ ¬ isOpen c) (h : Handshake isOpen seq ph p q)
    (hm : ph.Move next p q seq seq' ph')
    (hfresh : ph.opens < ph'.opens → p.ack ≠ next seq ∧ q.ack ≠ next seq) :
    Handshake isOpen seq' ph' p q := by
  cases hm with
  | stay => exact h
  | announce =>
    obtain ⟨hp, hq⟩ := hfresh Nat.zero_lt_one
    exact ⟨(hnext _).2 h, rfl, fun hack => absurd hack hp, fun hack => absurd hack hq⟩
  | first hack =>
    obtain ⟨ho, rfl, hp, hq⟩ := h
    exact ⟨ho, rfl, hp, hq, hp hack⟩
  | second hack =>
    obtain ⟨ho, rfl, hp, hq, hin⟩ := h
    exact ⟨ho, hin, hq hack⟩
  | again =>
    obtain ⟨ho, rfl, hp, hq, -⟩ := h
    exact ⟨ho, rfl, hp, hq⟩
  | timeout₁ => exact h.1
  | timeout₂ => exact h.1
  | withdraw => exact fun ho => (hnext _).1 ho h
  | finish => exact fun ho => (hnext _).1 ho h.1

/-- The number waited for is the current one, and asks for parking. -/
theorem waited {c : W} (h : Handshake isOpen seq ph p q) (hw : ph.Waits c) :
    isOpen seq ∧ seq = c := by
  rcases hw with rfl | rfl
  · exact ⟨h.1, h.2.1.symm⟩
  · exact ⟨h.1, h.2.1.symm⟩

end Handshake

/-- Echoes of the number waited for are not taken back. -/
def Steady (ph : Phase W) (p q : Parking W) : Prop :=
  ∀ c, ph.Waits c → p.Stays c ∧ q.Stays c

namespace Steady

theorem first (h : Steady ph p q) (hs : Handshake isOpen seq ph p q)
    (hm : p.Move isOpen seq p') : Steady ph p' q := by
  intro c hw
  obtain ⟨ho, rfl⟩ := hs.waited hw
  exact ⟨(h _ hw).1.move ho hm, (h _ hw).2⟩

theorem second (h : Steady ph p q) (hs : Handshake isOpen seq ph p q)
    (hm : q.Move isOpen seq q') : Steady ph p q' := by
  intro c hw
  obtain ⟨ho, rfl⟩ := hs.waited hw
  exact ⟨(h _ hw).1, (h _ hw).2.move ho hm⟩

/-- A move of the requester that announces no number an acknowledgement still shows. -/
theorem request (h : Steady ph p q) (hm : ph.Move next p q seq seq' ph')
    (hfresh : ph.opens < ph'.opens → p.ack ≠ next seq ∧ q.ack ≠ next seq) : Steady ph' p q := by
  intro c hw
  rcases hm.waits hw with hw' | ⟨rfl, rfl⟩
  · exact h c hw'
  · have hopens : ph'.opens = 1 := by rcases hw with rfl | rfl <;> rfl
    obtain ⟨hp, hq⟩ := hfresh (by rw [hopens]; exact Nat.zero_lt_one)
    exact ⟨fun hack => absurd hack hp, fun hack => absurd hack hq⟩

end Steady

/-! ### Numbers that do not wrap -/

/-- After `n` announcements: the current number, and a bound on those in use. -/
structure Numbered (num : W → ℕ) (n : ℕ) (seq : W) (ph : Phase W) (p q : Parking W) : Prop where
  count : num seq + ph.opens = 2 * n
  first : p.AtMost num (num seq)
  second : q.AtMost num (num seq)

namespace Numbered

variable {num : W → ℕ} {n n' top : ℕ}

/-- The next number is new. -/
theorem fresh (next : W → W) (h : Numbered num n seq ph p q) (hlt : num seq < num (next seq)) :
    p.ack ≠ next seq ∧ q.ack ≠ next seq := by
  have hp := h.first.1
  have hq := h.second.1
  refine ⟨fun heq => ?_, fun heq => ?_⟩
  · rw [heq] at hp; omega
  · rw [heq] at hq; omega

/-- A move of the requester, while there are fewer than `top` numbers in use. -/
theorem request (hnum : ∀ c, num c < top → num (next c) = num c + 1)
    (h : Numbered num n seq ph p q) (hm : ph.Move next p q seq seq' ph')
    (hn : n' = n + (ph'.opens - ph.opens)) (htop : 2 * n' ≤ top) :
    Numbered num n' seq' ph' p q := by
  obtain ⟨hc, hp, hq⟩ := h
  cases hm with
  | stay => exact ⟨by omega, hp, hq⟩
  | announce =>
    simp only [Phase.opens] at hc hn
    have hs := hnum seq (by omega)
    exact ⟨by simp only [Phase.opens]; omega, hp.mono (by omega), hq.mono (by omega)⟩
  | first _ | second _ | again | timeout₁ | timeout₂ =>
    simp only [Phase.opens] at hc hn
    exact ⟨by simp only [Phase.opens]; omega, hp, hq⟩
  | withdraw | finish =>
    simp only [Phase.opens] at hc hn
    have hs := hnum seq (by omega)
    exact ⟨by simp only [Phase.opens]; omega, hp.mono (by omega), hq.mono (by omega)⟩

end Numbered

end Espcan32

import BordOS.Library.ProgramRefinement
import BordOS.Library.ProgramStops

namespace BordOS.Library
set_option autoImplicit true
set_option relaxedAutoImplicit false

variable {ι : Type} {ρ : ι → Type} {ε σ υ ω α β : Type}

def Event.lifted (lift : σ → υ) (x : Event ι ρ σ) : Event ι ρ υ := ⟨lift x.before, x.op, x.reply⟩

namespace Prog

/-- On the operations `ok` the device `d` is the device `e`, which has a part of its state: `lift`
puts the part into the whole, and nothing else of it changes. -/
def ActsOn (d : Device ι ρ υ) (e : Device ι ρ σ) (lift : σ → υ) (ok : ι → Prop) : Prop :=
  ∀ op s, ok op → d op (lift s) = ((e op s).1, lift (e op s).2)

variable {d : Device ι ρ υ} {e : Device ι ρ σ} {lift : σ → υ} {ok : ι → Prop}

theorem ActsOn.comp {f : Device ι ρ ω} {lift' : ω → σ} (h : ActsOn d e lift ok)
    (h' : ActsOn e f lift' ok) : ActsOn d f (fun s => lift (lift' s)) ok := by
  intro op s hop
  rw [h op _ hop, h' op s hop]

theorem ActsOn.run (h : ActsOn d e lift ok) {p : Prog ι ρ ε α} (hp : p.Uses ok) (s : σ) :
    p.run d (lift s) = withState (lift (endState (p.run e s))) (p.run e s) ∧
      p.events d (lift s) = (p.events e s).map (Event.lifted lift) := by
  induction hp generalizing s with
  | pure a => exact ⟨rfl, rfl⟩
  | fail e => exact ⟨rfl, rfl⟩
  | @call op next hop _ ih =>
    obtain ⟨hrun, hevents⟩ := ih (e op s).1 (e op s).2
    constructor
    · simp only [Prog.run, h op s hop]
      exact hrun
    · simp only [events, h op s hop, hevents]
      rfl

theorem ActsOn.converges (h : ActsOn d e lift ok) {p : Nat → Prog ι ρ ε α}
    (hp : ∀ n, (p n).Uses ok) {s t : σ} {a : α} (hc : Converges e p s a t) :
    Converges d p (lift s) a (lift t) := by
  obtain ⟨N, hN⟩ := hc
  refine ⟨N, ?_⟩
  intro n hn
  rw [(h.run (hp n) s).1, hN n hn]
  rfl

theorem ActsOn.idles (h : ActsOn d e lift ok) {p : Nat → Prog ι ρ ε α} (hp : ∀ n, (p n).Uses ok)
    {E : Event ι ρ σ → Prop} {E' : Event ι ρ υ → Prop} (hE : ∀ x, E x → E' (x.lifted lift)) {f : ε}
    {s : σ} (hi : Idles e E f p s) : Idles d E' f p (lift s) := by
  intro k
  obtain ⟨N, hN⟩ := hi k
  refine ⟨N, ?_⟩
  intro n hn
  obtain ⟨pre, rest, t, hevents, hlen, hrest, hend⟩ := hN n hn
  obtain ⟨hrun', hevents'⟩ := h.run (hp n) s
  refine ⟨pre.map (Event.lifted lift), rest.map (Event.lifted lift), lift t, ?_, ?_, ?_, ?_⟩
  · rw [hevents', hevents, List.map_append]
  · rw [List.length_map]
    exact hlen
  · intro x hx
    obtain ⟨y, hy, rfl⟩ := List.mem_map.1 hx
    exact hE y (hrest y hy)
  · rw [hrun', hend]
    rfl

section Translate

variable {κ : Type} {τ : κ → Type} {d : Device ι ρ σ} {d' : Device κ τ υ}
  {h : (op : ι) → Prog κ τ ε (ρ op)} {R : σ → υ → Prop} {E : Event ι ρ σ → Prop}
  {E' : Event κ τ υ → Prop}

/-- The last events of a run that satisfy `E` become events that satisfy `E'`, and no fewer. -/
theorem translate_events
    (hstep : ∀ op s t, R s t → ∃ t', (h op).run d' t = .ok (d op s).1 t' ∧ R (d op s).2 t' ∧
      (E ⟨s, op, (d op s).1⟩ → (h op).events d' t ≠ [] ∧ ∀ x ∈ (h op).events d' t, E' x))
    (p : Prog ι ρ ε α) {s : σ} {t : υ} (hR : R s t) {pre rest : List (Event ι ρ σ)}
    (hevents : p.events d s = pre ++ rest) (hrest : ∀ x ∈ rest, E x) :
    ∃ pre' rest' t', (p.translate h).events d' t = pre' ++ rest' ∧ (pre = [] → pre' = []) ∧
      rest.length ≤ rest'.length ∧ (∀ x ∈ rest', E' x) ∧
      (p.translate h).run d' t = withState t' (p.run d s) := by
  induction p generalizing s t pre rest with
  | ret a =>
    obtain ⟨rfl, rfl⟩ := List.nil_eq_append_iff.1 hevents
    exact ⟨[], [], t, rfl, fun _ => rfl, Nat.le_refl _, fun x hx => absurd hx List.not_mem_nil, rfl⟩
  | fail f =>
    obtain ⟨rfl, rfl⟩ := List.nil_eq_append_iff.1 hevents
    exact ⟨[], [], t, rfl, fun _ => rfl, Nat.le_refl _, fun x hx => absurd hx List.not_mem_nil, rfl⟩
  | call op next ih =>
    obtain ⟨u, hrun, hu, hE⟩ := hstep op s t hR
    have hsplit : ((Prog.call op next).translate h).events d' t =
        (h op).events d' t ++ ((next (d op s).1).translate h).events d' u := by
      change (h op >>= fun r => (next r).translate h).events d' t = _
      rw [events_bind, hrun]
    have hresult : ((Prog.call op next).translate h).run d' t =
        ((next (d op s).1).translate h).run d' u := by
      change (h op >>= fun r => (next r).translate h).run d' t = _
      rw [run_bind, hrun]
    rw [hsplit, hresult]
    cases pre with
    | nil =>
      obtain rfl : rest = ⟨s, op, (d op s).1⟩ :: (next (d op s).1).events d (d op s).2 :=
        hevents.symm
      obtain ⟨hne, hall⟩ := hE (hrest _ (.head _))
      obtain ⟨pre', rest', t', hlater, hfirst, hlen, hrest', hend⟩ :=
        ih _ hu (List.nil_append _).symm fun x hx => hrest x (.tail _ hx)
      obtain rfl := hfirst rfl
      have hone : 0 < ((h op).events d' t).length := List.length_pos_iff.2 hne
      rw [List.nil_append] at hlater
      rw [hlater]
      refine ⟨[], (h op).events d' t ++ rest', t', rfl, fun _ => rfl, ?_, ?_, hend⟩
      · rw [List.length_append, List.length_cons]
        omega
      · intro x hx
        rcases List.mem_append.1 hx with hx | hx
        · exact hall x hx
        · exact hrest' x hx
    | cons x pre =>
      obtain ⟨-, hlater⟩ := List.cons.inj hevents
      obtain ⟨pre', rest', t', hlater', -, hlen, hrest', hend⟩ := ih _ hu hlater hrest
      refine ⟨(h op).events d' t ++ pre', rest', t', ?_, ?_, hlen, hrest', hend⟩
      · rw [hlater', List.append_assoc]
      · intro hnil
        cases hnil

theorem Idles.translate
    (hstep : ∀ op s t, R s t → ∃ t', (h op).run d' t = .ok (d op s).1 t' ∧ R (d op s).2 t' ∧
      (E ⟨s, op, (d op s).1⟩ → (h op).events d' t ≠ [] ∧ ∀ x ∈ (h op).events d' t, E' x))
    {f : ε} {p : Nat → Prog ι ρ ε α} {s : σ} {t : υ} (hR : R s t) (hi : Idles d E f p s) :
    Idles d' E' f (fun n => (p n).translate h) t := by
  intro k
  obtain ⟨N, hN⟩ := hi k
  refine ⟨N, ?_⟩
  intro n hn
  obtain ⟨pre, rest, u, hevents, hlen, hrest, hend⟩ := hN n hn
  obtain ⟨pre', rest', t', hevents', -, hlen', hrest', hend'⟩ :=
    translate_events hstep (p n) hR hevents hrest
  rw [hend] at hend'
  exact ⟨pre', rest', t', hevents', Nat.le_trans hlen hlen', hrest', hend'⟩

end Translate

theorem Idles.loopWhile {body : Prog ι ρ ε β} {again : β → Bool} {f : ε} {P : σ → Prop}
    {E : Event ι ρ σ → Prop}
    (h : ∀ s, P s → body.events e s ≠ [] ∧ (∀ x ∈ body.events e s, E x) ∧
      ∃ b t, body.run e s = .ok b t ∧ again b = true ∧ P t) {s : σ} (hs : P s) :
    Idles e E f (Prog.loopWhile body again f) s := by
  have hrounds (n : Nat) : ∀ s, P s → n ≤ ((Prog.loopWhile body again f n).events e s).length ∧
      (∀ x ∈ (Prog.loopWhile body again f n).events e s, E x) ∧
      ∃ t, (Prog.loopWhile body again f n).run e s = .error f t := by
    induction n with
    | zero =>
      intro s _
      exact ⟨Nat.zero_le _, fun x hx => absurd hx List.not_mem_nil, s, rfl⟩
    | succ n ih =>
      intro s hs
      obtain ⟨hne, hE, b, t, hrun, hb, ht⟩ := h s hs
      obtain ⟨hlen, hrest, u, hend⟩ := ih t ht
      have hone : 0 < (body.events e s).length := List.length_pos_iff.2 hne
      simp only [Prog.loopWhile, events_bind, run_bind, hrun, hb, ↓reduceIte, List.length_append,
        List.mem_append]
      refine ⟨by omega, ?_, u, hend⟩
      rintro x (hx | hx)
      · exact hE x hx
      · exact hrest x hx
  intro k
  refine ⟨k, ?_⟩
  intro n hn
  obtain ⟨hlen, hrest, t, hend⟩ := hrounds n s hs
  exact ⟨[], _, t, rfl, Nat.le_trans hn hlen, hrest, hend⟩

end Prog

end BordOS.Library

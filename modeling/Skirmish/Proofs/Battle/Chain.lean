import Skirmish.Proofs.Battle.Course
import Skirmish.Proofs.Formula.Environment
import Skirmish.Proofs.Formula.Printing

/-!
# Chains of skills

A skill may cast another one, which casts a third, and so on. Each skill of such a chain is one level
deeper than the one that casts it, so the chain succeeds exactly if there are as many levels as
skills.

1. `bindSkill_castOn`, `resolve_castCall`: to evaluate a formula that casts the next skill is to
   cast it.
2. `Chain.useSkill`: a chain that begins at some depth, by induction on the chain.
3. `reentry_limit_exact`: a chain that is begun from outside.
-/

namespace Skirmish.Battle

open Skirmish.Formula Expr

/-! ## Casting the next skill -/

/-- The standard function that casts. -/
def castFunction : Function := ⟨"CAST", .exactly 3, .cast, [], [2]⟩

/-- The formula `CAST($CASTER,$TARGET,skill)`, which casts a skill for the same two. -/
def castOn (skill : String) : Expr :=
  .call castFunction [.leaf (.key casterPlaceholder), .leaf (.key targetPlaceholder),
    .leaf (.key skill)]

/-- It is what is read from that text, if the name of the skill is a word and not a number. -/
theorem parse_castOn {skill : String} (word : IsWord skill) (hkey : literal skill = .key skill) :
    Expr.parse .standard ("CAST($CASTER,$TARGET," ++ skill ++ ")") = .ok (castOn skill) := by
  let w : Written := .call castFunction [.word casterPlaceholder, .word targetPlaceholder,
    .word skill]
  have proper : w.Proper :=
    ⟨by decide, rfl, (by decide : IsWord casterPlaceholder), (by decide : IsWord targetPlaceholder),
      word, trivial⟩
  have htext : w.text = "CAST($CASTER,$TARGET," ++ skill ++ ")" := rfl
  have hexpr : w.expr = castOn skill := by
    simp only [w, Written.expr, Written.exprs, hkey]
    rfl
  have hrun : Reads none .start [] (w.tokens ++ []) w.expr :=
    (w.reads proper).2 (Option.some_ne_none _).symm fun x level finished =>
      finished ▸ .done x level
  rw [List.append_nil] at hrun
  rw [← htext, ← hexpr]
  unfold Expr.parse
  rw [Written.tokenize_text proper]
  exact ofTokens_eq_ok_iff.2 hrun

/-- A call of that function with keys for arguments. -/
def castCall (caster target skill : String) : Expr :=
  .call castFunction ([caster, target, skill].map fun name => .leaf (.key name))

/-- Bound to entities without stats of their names, the formula casts on their behalf. -/
theorem bindSkill_castOn (v : Vocabulary) (hasStat : String → String → Bool)
    {caster target skill : String} (hcaster : hasStat caster caster = false)
    (htarget : hasStat caster target = false)
    (hskill : skill ≠ casterPlaceholder ∧ skill ≠ targetPlaceholder) :
    (castOn skill).bindSkill v hasStat caster target = castCall caster target skill := by
  have hroles : (castOn skill).bindRoles caster target = castCall caster target skill := by
    have hne : targetPlaceholder ≠ casterPlaceholder := by decide
    simp [castOn, castCall, bindRoles, substitute, substituteArguments, hskill, hne]
  unfold bindSkill bindStats
  rw [hroles]
  split
  · rfl
  · -- The third argument is a name by its position.
    have hkey : Slot.isKey ⟨castFunction, 2⟩ = true := by decide
    simp [castCall, substitute, substituteArguments, hcaster, htarget, hkey]

theorem call_castFunction {σ : Type} {w : World σ} {s : σ} {d : Nat} {caster target : String}
    (skill : String) (hcaster : w.entityExists s caster = true)
    (htarget : w.entityExists s target = true) :
    castFunction.call w ([caster, target, skill].map fun name => .value (named w s name)) ⟨s, d⟩ =
      (Evaluation.perform (w.cast caster target skill) >>= fun _ => pure .null :
        Action (Evaluation σ) Value) ⟨s, d⟩ := by
  show (Evaluation.lift (named w s caster).asEntity >>= fun caster =>
    Evaluation.lift (named w s target).asEntity >>= fun target =>
      Evaluation.lift (named w s skill).asKey >>= fun skill =>
        Evaluation.perform (w.cast caster target skill) >>= fun _ => pure .null :
    Action (Evaluation σ) Value) _ = _
  rw [asKey_named]
  unfold named
  rw [hcaster, htarget]
  rfl

/-- It is evaluated by casting. -/
theorem resolve_castCall {σ : Type} {w : World σ} {s : σ} {caster target : String}
    (skill : String) (hcaster : w.entityExists s caster = true)
    (htarget : w.entityExists s target = true) :
    (castCall caster target skill).resolve w s =
      (w.cast caster target skill >>= fun _ => pure .null : Action σ Value) s := by
  unfold resolve castCall
  rw [eval_call_keys (by decide) (fun _ => rfl), nested_of_lt (by decide),
    call_castFunction skill hcaster htarget]
  cases h : w.cast caster target skill s with
  | ok a t =>
    have hperform : Evaluation.perform (w.cast caster target skill) ⟨s, 1⟩ = .ok a ⟨t, 1⟩ := by
      unfold Evaluation.perform
      rw [h]
    rw [bind_of_ok hperform, bind_of_ok h]
    rfl
  | error e t =>
    have hperform : Evaluation.perform (w.cast caster target skill) ⟨s, 1⟩ = .error e ⟨t, 1⟩ := by
      unfold Evaluation.perform
      rw [h]
    rw [bind_of_error hperform, bind_of_error h]

theorem bindSkill_number (v : Vocabulary) (hasStat : String → String → Bool)
    (caster target : String) (x : Float) :
    (Expr.leaf (.number x)).bindSkill v hasStat caster target = .leaf (.number x) := by
  unfold bindSkill bindStats
  split <;> rfl

/-! ## Levels -/

/-- The battle at another depth. -/
def atDepth (b : Battle) (d : Nat) : Battle := { b with depth := d }

/-- What formulas cast is evaluated one level deeper, as far as there is one. -/
theorem exists_resolver_cast (n : Nat) :
    ∃ r : Resolver, (∀ m, m + 1 = n → r = fun e => e.resolve (world m)) ∧
      ∀ caster target skill,
        (world n).cast caster target skill = discard (useSkill r caster target skill) := by
  cases n with
  | zero => exact ⟨refuse, fun m hm => absurd hm (Nat.succ_ne_zero m), fun _ _ _ => rfl⟩
  | succ n =>
    refine ⟨fun e => e.resolve (world n), fun m hm => ?_, fun _ _ _ => rfl⟩
    rw [Nat.succ.inj hm]

/-! ## Chains -/

/-- The skill `s` is the first one of a chain of `n`: each casts the next one, and the last one is
worth `x`. -/
inductive Chain (b : Battle) (x : Float) : (n : Nat) → (s : String) → Prop
  | last {s : String} {k : Skill} (known : b.skills.get? s = some k)
      (formula : k.formula = .leaf (.number x)) : Chain b x 1 s
  | cast {n : Nat} {s t : String} {k : Skill} (known : b.skills.get? s = some k)
      (formula : k.formula = castOn t) (ordinary : t ≠ casterPlaceholder ∧ t ≠ targetPlaceholder)
      (rest : Chain b x n t) : Chain b x (n + 1) s

theorem Chain.pos {b : Battle} {x : Float} {n : Nat} {s : String} (chain : b.Chain x n s) :
    0 < n := by
  cases chain <;> exact Nat.succ_pos _

section Chains

variable {b : Battle} {x : Float} {n : Nat} {s caster target : String} {r : Resolver}

theorem useSkill_of_known {k : Skill} (known : b.skills.get? s = some k) (d : Nat) :
    useSkill r caster target s (b.atDepth d) =
      deeper (resolveSkill r k.formula caster target) (b.atDepth d) := by
  have hknown : (b.atDepth d).skills.get? s = some k := known
  unfold useSkill
  rw [get_bind, hknown]

variable (hcaster : b.contains caster = true) (htarget : b.contains target = true)
  (plainCaster : b.hasStat caster caster = false) (plainTarget : b.hasStat caster target = false)

include hcaster htarget plainCaster plainTarget

/-- One link: the formula is evaluated by casting the next skill. -/
theorem resolveSkill_castOn {t : String}
    (ordinary : t ≠ casterPlaceholder ∧ t ≠ targetPlaceholder) (m d : Nat) :
    resolveSkill (fun e => e.resolve (world m)) (castOn t) caster target (b.atDepth d) =
      ((world m).cast caster target t >>= fun _ => pure .null : Action Battle Value)
        (b.atDepth d) := by
  have hbind := bindSkill_castOn (b.atDepth d).vocabulary (b.atDepth d).hasStat plainCaster
    plainTarget ordinary
  have hexists : (world m).entityExists (b.atDepth d) = b.contains := by cases m <;> rfl
  unfold resolveSkill
  rw [hbind]
  exact resolve_castCall t (hexists ▸ hcaster) (hexists ▸ htarget)

/-- **Chains.** From any depth, with formulas evaluated at the levels that are left, a chain succeeds
exactly if there are enough of them, and leaves the battle as it was. -/
theorem Chain.useSkill (chain : b.Chain x n s) (d : Nat)
    (hr : ∀ m, d + m + 1 = b.settings.reentryLimit → r = fun e => e.resolve (world m)) :
    useSkill r caster target s (b.atDepth d) =
      if d + n ≤ b.settings.reentryLimit then
        .ok (if n = 1 then .number x else .null) (b.atDepth d)
      else .error (.recursionLimit b.settings.reentryLimit) (b.atDepth d) := by
  induction chain generalizing d r with
  | @last s k known formula =>
    rw [useSkill_of_known known, formula]
    by_cases room : d < b.settings.reentryLimit
    · rw [if_pos (Nat.succ_le_of_lt room), if_pos rfl]
      refine deeper_of_ok room ?_
      unfold resolveSkill
      rw [bindSkill_number, hr (b.settings.reentryLimit - d - 1) (by omega)]
      exact resolve_number ..
    · rw [if_neg (by omega)]
      exact deeper_of_full (Nat.not_lt.1 room)
  | @cast n s t k known formula ordinary rest ih =>
    rw [useSkill_of_known known, formula]
    by_cases room : d < b.settings.reentryLimit
    · obtain ⟨m, hm⟩ : ∃ m, d + m + 1 = b.settings.reentryLimit :=
        ⟨b.settings.reentryLimit - d - 1, by omega⟩
      obtain rfl := hr m hm
      -- The next skill is cast one level deeper, with one level less.
      obtain ⟨r', hr', hcast⟩ := exists_resolver_cast m
      have hlink := resolveSkill_castOn hcaster htarget plainCaster plainTarget ordinary m (d + 1)
      have hrest := ih (d + 1) (r := r') fun m' hm' => hr' m' (by omega)
      rw [hcast] at hlink
      by_cases hn : d + 1 + n ≤ b.settings.reentryLimit
      · have hpos : 0 < n := rest.pos
        rw [if_pos hn] at hrest
        rw [if_pos (by omega), if_neg (by omega)]
        have hdiscard : discard (useSkill r' caster target t) (b.atDepth (d + 1)) =
            .ok () (b.atDepth (d + 1)) := bind_of_ok hrest
        exact deeper_of_ok room (hlink.trans (bind_of_ok hdiscard))
      · rw [if_neg hn] at hrest
        rw [if_neg (by omega)]
        have hdiscard : discard (useSkill r' caster target t) (b.atDepth (d + 1)) =
            .error (.recursionLimit b.settings.reentryLimit) (b.atDepth (d + 1)) :=
          bind_of_error hrest
        exact deeper_of_error room (hlink.trans (bind_of_error hdiscard))
    · rw [if_neg (by omega)]
      exact deeper_of_full (Nat.not_lt.1 room)

end Chains

/-- **The limit of re-entry is exact.** A skill that is the first one of a chain of `n` is cast
successfully exactly if there are `n` levels left: from outside, where the depth is zero, exactly if
the limit is `n` or more. Otherwise the limit is the fault. Either way the battle is left as it was.

The caster and the target are there, and no stat of the caster is called like one of them. -/
theorem reentry_limit_exact (b : Battle) (x : Float) (n : Nat) (s caster target : String)
    (chain : b.Chain x n s) (hcaster : b.contains caster = true)
    (htarget : b.contains target = true) (plainCaster : b.hasStat caster caster = false)
    (plainTarget : b.hasStat caster target = false) :
    castSkill caster target s b =
      if b.depth + n ≤ b.settings.reentryLimit then
        .ok (if n = 1 then .number x else .null) b
      else .error (.eval (.recursionLimit b.settings.reentryLimit)) b := by
  have huse := chain.useSkill (r := b.below) hcaster htarget plainCaster plainTarget b.depth
    fun m hm => by
      have hlevels : b.levels - 1 = m := by unfold levels; omega
      unfold below
      rw [hlevels]
  unfold castSkill
  rw [bind_of_ok (require_of_contains hcaster), bind_of_ok (require_of_contains htarget)]
  by_cases room : b.depth + n ≤ b.settings.reentryLimit
  · rw [if_pos room] at huse ⊢
    exact act_of_ok huse
  · rw [if_neg room] at huse ⊢
    exact act_of_error huse

/-- Three skills are cast where the limit is three, and not where it is two. -/
theorem reentry_limit_exact_three :
    let b (limit : Nat) := run (new { Settings.standard with reentryLimit := limit })
      [.add "h" "H" .player, .add "m" "M" .enemy, .addSkill ⟨"a", castOn "b"⟩,
        .addSkill ⟨"b", castOn "c"⟩, .addSkill ⟨"c", .leaf (.number 7)⟩]
    (∀ limit, (b limit).Chain 7 3 "a" ∧ (b limit).contains "h" = true ∧
      (b limit).contains "m" = true ∧ (b limit).hasStat "h" "h" = false ∧
      (b limit).hasStat "h" "m" = false) ∧
      castSkill "h" "m" "a" (b 3) = .ok .null (b 3) ∧
      castSkill "h" "m" "a" (b 2) = .error (.eval (.recursionLimit 2)) (b 2) := by
  intro b
  have chain (limit : Nat) : (b limit).Chain 7 3 "a" :=
    .cast rfl rfl (by decide) (.cast rfl rfl (by decide) (.last rfl rfl))
  refine ⟨fun limit => ⟨chain limit, rfl, rfl, rfl, rfl⟩, ?_, ?_⟩
  · exact (reentry_limit_exact (b 3) 7 3 "a" "h" "m" (chain 3) rfl rfl rfl rfl).trans
      (if_pos (by decide))
  · exact (reentry_limit_exact (b 2) 7 3 "a" "h" "m" (chain 2) rfl rfl rfl rfl).trans
      (if_neg (by decide))

end Skirmish.Battle

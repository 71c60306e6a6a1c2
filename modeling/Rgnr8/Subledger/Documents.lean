import Rgnr8.Kernel.Money
import Rgnr8.Kernel.TrialBalance

/-! Line-item documents and the balanced command each of them posts: one anchor line with the
total, and the lines of the document on the other side. -/

namespace Rgnr8.Subledger
open Lib Fallible Kernel Except

structure DocumentLine where
  description : Option String
  quantity : Option Int
  unitAmount : Option Money
  accountId : Option AccountId
  taxable : Option Bool
  dimensions : Option Dimensions

structure ResolvedLine where
  description : String
  quantity : Int
  unitAmount : Money
  amount : Money
  accountId : AccountId
  taxable : Bool
  dimensions : Option Dimensions

inductive DocumentSide where
  | income | expense

def DocumentSide.text : DocumentSide → String
  | income => "income"
  | expense => "expense"

inductive SubledgerError where
  | document (message : String)
  | tax (message : String)
  | money (e : MoneyError)
  deriving DecidableEq

def someDimensions (dimensions : Option Dimensions) : Option Dimensions :=
  dimensions.filter fun d => d.entries ≠ []

def resolveLine (side : DocumentSide) (currency : Currency) (line : DocumentLine) :
    Except SubledgerError ResolvedLine :=
  match line.unitAmount with
  | none => .error (.document "Line has no unitAmount and item has no unitPrice")
  | some unitAmount => match line.accountId with
    | none =>
      .error (.document s!"Line has no accountId and item has no default {side.text} account")
    | some accountId =>
      if unitAmount.currency.code ≠ currency.code then
        .error (.document s!"Line currency {unitAmount.currency.code} != {currency.code}")
      else if line.quantity.getD 1 ≤ 0 then
        .error (.document
          s!"Line quantity must be a positive integer, got {line.quantity.getD 1}")
      else do
        let amount ← (unitAmount.timesInteger (line.quantity.getD 1)).mapError .money
        return {
          description := line.description.getD ""
          quantity := line.quantity.getD 1
          unitAmount := unitAmount
          amount := amount
          accountId := accountId
          taxable := line.taxable.getD true
          dimensions := someDimensions line.dimensions }

def resolveLines (lines : List DocumentLine) (side : DocumentSide) (currency : Currency) :
    Except SubledgerError (List ResolvedLine) :=
  if lines = [] then .error (.document "document has no lines")
  else lines.mapM (resolveLine side currency)

def sumLines (lines : List ResolvedLine) (currency : Currency) : Except SubledgerError Money :=
  (lines.foldlM (fun (acc : Money) l => acc.plus l.amount) (Money.zero currency)).mapError .money

structure DocPostContext where
  tenantId : TenantId
  currency : Currency
  provenance : Provenance
  mappingVersion : Option String

structure Anchor where
  accountId : AccountId
  side : EntrySide

def itemLine (side : EntrySide) (l : ResolvedLine) : JournalLineInput where
  accountId := l.accountId
  side := side
  amount := l.amount
  memo := if l.description = "" then none else some l.description
  dimensions := l.dimensions

def command (idKey entryDate : String) (lines : List JournalLineInput) (ctx : DocPostContext)
    (memo : Option String) : PostCommand where
  tenantId := ctx.tenantId
  idempotencyKey := idKey
  periodKey := String.ofList (entryDate.toList.take 7)
  currency := ctx.currency
  entryDate := entryDate
  lines := lines
  provenance := { ctx.provenance with
    mappingVersion := ctx.mappingVersion.getD ctx.provenance.mappingVersion }
  memo := memo

def anchorLine (anchor : Anchor) (total : Money) : JournalLineInput :=
  ⟨anchor.accountId, anchor.side, total, none, none⟩

def anchoredLines (anchor : Anchor) (total : Money) (lines : List ResolvedLine) :
    List JournalLineInput :=
  let itemLines := lines.map (itemLine anchor.side.swap)
  if anchor.side = .debit then anchorLine anchor total :: itemLines
  else itemLines ++ [anchorLine anchor total]

def anchoredCommand (idKey entryDate : String) (anchor : Anchor) (lines : List ResolvedLine)
    (ctx : DocPostContext) (memo : Option String) : Except SubledgerError PostCommand := do
  let total ← sumLines lines ctx.currency
  return command idKey entryDate (anchoredLines anchor total lines) ctx memo

/-- A document of either subledger, as far as it is posted. -/
structure LineDocument where
  id : String
  date : String
  lines : List DocumentLine
  memo : Option String

def lineCommand (idPrefix : String) (side : DocumentSide) (anchorSide : EntrySide)
    (doc : LineDocument) (anchor : AccountId) (ctx : DocPostContext) :
    Except SubledgerError PostCommand := do
  let lines ← resolveLines doc.lines side ctx.currency
  anchoredCommand s!"{idPrefix}:{doc.id}" doc.date ⟨anchor, anchorSide⟩ lines ctx doc.memo

def billToPostCommand : LineDocument → AccountId → DocPostContext →
    Except SubledgerError PostCommand := lineCommand "bill" .expense .credit

def creditMemoToPostCommand : LineDocument → AccountId → DocPostContext →
    Except SubledgerError PostCommand := lineCommand "creditmemo" .income .credit

def vendorCreditToPostCommand : LineDocument → AccountId → DocPostContext →
    Except SubledgerError PostCommand := lineCommand "vendorcredit" .expense .debit

def refundReceiptToPostCommand : LineDocument → AccountId → DocPostContext →
    Except SubledgerError PostCommand := lineCommand "refund" .income .credit

def dueDateFromTerms (date : String) : Option Js.JsNumber → Except String String
  | none => .ok date
  | some none => .error "Invalid time value"
  | some (some termsDays) =>
    if termsDays ≤ 0 then .ok date
    else match (Js.utcDay date).bind fun day => Js.isoDay (day + termsDays.floor) with
      | some dueDate => .ok dueDate
      | none => .error "Invalid time value"

example : dueDateFromTerms "2026-08-01" (some (some 30)) = .ok "2026-08-31" := by decide +kernel

def minorSum (lines : List ResolvedLine) : Int := (lines.map fun l => l.amount.minorUnits).sum

def DocumentLine.minor (line : DocumentLine) : Int :=
  (line.unitAmount.map fun m => m.minorUnits).getD 0 * line.quantity.getD 1

/-- What resolving says about a line. -/
structure Resolves (currency : Currency) (line : DocumentLine) (resolved : ResolvedLine) : Prop where
  amount : resolved.amount.minorUnits = line.minor
  code : resolved.amount.currency.code = currency.code

theorem resolves {side : DocumentSide} {currency : Currency} {line : DocumentLine}
    {resolved : ResolvedLine} (h : resolveLine side currency line = .ok resolved) :
    Resolves currency line resolved := by
  unfold resolveLine at h
  cases hu : line.unitAmount with
  | none => rw [hu] at h; cases h
  | some m =>
    cases ha : line.accountId with
    | none => rw [hu, ha] at h; cases h
    | some a =>
      simp only [hu, ha, refuse_eq_ok, bind_eq_ok, mapError_eq_ok, not_not] at h
      obtain ⟨hcode, -, amount, hamt, hr⟩ := h
      have hr := ok.inj hr
      subst hr
      have hm := Money.eq_of_timesInteger hamt
      subst hm
      refine ⟨?_, hcode⟩
      rw [DocumentLine.minor, hu]
      rfl

theorem resolves_lines {side : DocumentSide} {currency : Currency} {lines : List DocumentLine}
    {resolved : List ResolvedLine} (h : resolveLines lines side currency = .ok resolved) :
    List.Forall₂ (Resolves currency) lines resolved := by
  rw [resolveLines, refuse_eq_ok, mapM_eq_ok] at h
  exact h.2.imp fun _ _ hl => resolves hl

section
variable {currency : Currency} {lines : List DocumentLine} {resolved : List ResolvedLine}

theorem minorSum_of_resolves (h : List.Forall₂ (Resolves currency) lines resolved) :
    minorSum resolved = (lines.map DocumentLine.minor).sum := by
  induction h with
  | nil => rfl
  | cons hl _ ih =>
    rw [List.map_cons, List.sum_cons, ← hl.amount, ← ih]
    exact List.sum_cons

theorem code_of_resolves (h : List.Forall₂ (Resolves currency) lines resolved) :
    ∀ l ∈ resolved, l.amount.currency.code = currency.code := by
  intro l hl
  obtain ⟨line, -, hline⟩ := exists_of_forall₂ h hl
  exact hline.code

end

variable {lines : List ResolvedLine}

theorem foldlM_plus {currency : Currency}
    (h : ∀ l ∈ lines, l.amount.currency.code = currency.code) (acc : Int) :
    lines.foldlM (fun (acc : Money) l => acc.plus l.amount) ⟨acc, currency⟩ =
      .ok ⟨acc + minorSum lines, currency⟩ := by
  induction lines generalizing acc with
  | nil => simp [minorSum, pure, Except.pure]
  | cons l lines ih =>
    rw [List.forall_mem_cons] at h
    rw [List.foldlM_cons, Money.plus_of_code_eq h.1.symm]
    have hsum : minorSum (l :: lines) = l.amount.minorUnits + minorSum lines := List.sum_cons
    rw [hsum, ← Int.add_assoc]
    exact ih h.2 _

theorem sumLines_eq {currency : Currency}
    (h : ∀ l ∈ lines, l.amount.currency.code = currency.code) :
    sumLines lines currency = .ok ⟨minorSum lines, currency⟩ := by
  rw [sumLines, Money.zero, foldlM_plus h, Int.zero_add]
  rfl

theorem lineCommand_eq_ok {idPrefix : String} {side : DocumentSide} {anchorSide : EntrySide}
    {doc : LineDocument} {anchor : AccountId} {ctx : DocPostContext} {cmd : PostCommand}
    (h : lineCommand idPrefix side anchorSide doc anchor ctx = .ok cmd) :
    ∃ lines, List.Forall₂ (Resolves ctx.currency) doc.lines lines ∧
      cmd = command s!"{idPrefix}:{doc.id}" doc.date (anchoredLines ⟨anchor, anchorSide⟩
        ⟨(doc.lines.map DocumentLine.minor).sum, ctx.currency⟩ lines) ctx doc.memo := by
  rw [lineCommand, bind_eq_ok] at h
  obtain ⟨lines, hlines, h⟩ := h
  have hresd := resolves_lines hlines
  rw [anchoredCommand, sumLines_eq (code_of_resolves hresd)] at h
  refine ⟨lines, hresd, ?_⟩
  rw [← minorSum_of_resolves hresd]
  exact (ok.inj h).symm

/-! Sales tax at a rate in parts per million, rounded half up, and the invoice that charges it:
Dr A/R net and tax, Cr the income account of each line, Cr sales tax payable. -/

def ppm : Int := 1000000

def taxOnMinor (baseMinor ratePpm : Int) : Except SubledgerError Int :=
  if ratePpm < 0 then .error (.tax s!"ratePpm must be a non-negative integer, got {ratePpm}")
  else
    let base := if baseMinor < 0 then -baseMinor else baseMinor
    let taxed := (base * ratePpm + ppm.tdiv 2).tdiv ppm
    .ok (if baseMinor < 0 then -taxed else taxed)

def taxOnAmount (base : Money) (ratePpm : Int) : Except SubledgerError Money :=
  (taxOnMinor base.minorUnits ratePpm).map fun tax => ⟨tax, base.currency⟩

def taxableBase (lines : List ResolvedLine) (currency : Currency) : Except SubledgerError Money :=
  sumLines (lines.filter fun l => l.taxable) currency

structure TaxedInvoiceAccounts where
  arControl : AccountId
  salesTaxPayable : AccountId

structure TaxedInvoiceResult where
  command : PostCommand
  net : Money
  tax : Money
  total : Money

def taxLines (salesTaxPayable : AccountId) (tax : Money) : List JournalLineInput :=
  if tax.minorUnits = 0 then [] else [⟨salesTaxPayable, .credit, tax, some "Sales tax", none⟩]

def taxedInvoiceToPostCommand (doc : LineDocument) (accounts : TaxedInvoiceAccounts)
    (ratePpm : Int) (ctx : DocPostContext) : Except SubledgerError TaxedInvoiceResult := do
  let lines ← resolveLines doc.lines .income ctx.currency
  let net ← sumLines lines ctx.currency
  let base ← taxableBase lines ctx.currency
  let tax ← taxOnAmount base ratePpm
  let total ← (net.plus tax).mapError .money
  let journal := anchorLine ⟨accounts.arControl, .debit⟩ total ::
    lines.map (itemLine .credit) ++ taxLines accounts.salesTaxPayable tax
  return {
    command := Subledger.command s!"invoice:{doc.id}" doc.date journal ctx doc.memo
    net := net
    tax := tax
    total := total }

theorem taxOnMinor_nonneg {base ratePpm tax : Int} (hbase : 0 ≤ base)
    (h : taxOnMinor base ratePpm = .ok tax) : 0 ≤ tax := by
  rw [taxOnMinor, refuse_eq_ok] at h
  obtain ⟨hrate, h⟩ := h
  have htax := ok.inj h
  rw [if_neg (not_lt.mpr hbase), if_neg (not_lt.mpr hbase)] at htax
  rw [← htax]
  have hmul : 0 ≤ base * ratePpm := mul_nonneg hbase (not_lt.mp hrate)
  have hhalf : ppm.tdiv 2 = 500000 := rfl
  refine Int.tdiv_nonneg ?_ (by decide)
  omega

/-- What a taxed invoice that was assembled looks like. -/
structure TaxedInvoice (doc : LineDocument) (accounts : TaxedInvoiceAccounts)
    (ctx : DocPostContext) (r : TaxedInvoiceResult) (lines : List ResolvedLine) : Prop where
  resolved : List.Forall₂ (Resolves ctx.currency) doc.lines lines
  total : r.total.minorUnits = (doc.lines.map DocumentLine.minor).sum + r.tax.minorUnits
  tax : (∀ l ∈ doc.lines, 0 ≤ l.minor) → 0 ≤ r.tax.minorUnits
  command : r.command = Subledger.command s!"invoice:{doc.id}" doc.date
    (anchorLine ⟨accounts.arControl, .debit⟩ r.total ::
      lines.map (itemLine .credit) ++ taxLines accounts.salesTaxPayable r.tax) ctx doc.memo

theorem minorSum_nonneg (h : ∀ l ∈ lines, 0 ≤ l.amount.minorUnits) : 0 ≤ minorSum lines := by
  refine List.sum_nonneg fun n hn => ?_
  obtain ⟨l, hl, rfl⟩ := List.mem_map.mp hn
  exact h l hl

theorem taxedInvoice {doc : LineDocument} {accounts : TaxedInvoiceAccounts} {ratePpm : Int}
    {ctx : DocPostContext} {r : TaxedInvoiceResult}
    (h : taxedInvoiceToPostCommand doc accounts ratePpm ctx = .ok r) :
    ∃ lines, TaxedInvoice doc accounts ctx r lines := by
  simp only [taxedInvoiceToPostCommand, bind_eq_ok, mapError_eq_ok] at h
  obtain ⟨lines, hlines, net, hnet, base, hbase, tax, htax, total, htot, hr⟩ := h
  have hr := ok.inj hr
  subst hr
  have hresd := resolves_lines hlines
  have hcodes := code_of_resolves hresd
  rw [sumLines_eq hcodes] at hnet
  have hnet := ok.inj hnet
  subst hnet
  have htaxab : ∀ l ∈ lines.filter (fun l => l.taxable), l ∈ lines :=
    fun l hl => List.mem_of_mem_filter hl
  rw [taxableBase, sumLines_eq fun l hl => hcodes l (htaxab l hl)] at hbase
  have hbase := ok.inj hbase
  subst hbase
  rw [taxOnAmount, map_eq_ok] at htax
  obtain ⟨minor, hmin, rfl⟩ := htax
  have hplus : (⟨minorSum lines, ctx.currency⟩ : Money).plus ⟨minor, ctx.currency⟩ =
      .ok ⟨minorSum lines + minor, ctx.currency⟩ := Money.plus_of_code_eq rfl
  have htot := ok.inj (hplus.symm.trans htot)
  subst htot
  refine ⟨lines, hresd, ?_, fun hpos => ?_, rfl⟩
  · rw [← minorSum_of_resolves hresd]
  · refine taxOnMinor_nonneg (minorSum_nonneg fun l hl => ?_) hmin
    obtain ⟨line, hmem, hline⟩ := exists_of_forall₂ hresd (htaxab l hl)
    rw [hline.amount]
    exact hpos line hmem

end Rgnr8.Subledger

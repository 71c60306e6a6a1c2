import Rgnr8.Service.TieOut

/-! The sales tax of an invoice that is credited in parts. Each credit takes its own share of the
tax, rounded down, so the shares add up to the tax exactly when none of them is rounded. -/

namespace Rgnr8.Service.ArAp
open Lib Lib.Js Fallible Kernel Subledger Int

/-! What entries debit. -/

def debited (p : AccountId → Bool) (lines : List PostedLine) : Int :=
  ((lines.filter fun l => l.side = .debit ∧ p l.accountId).map fun l => l.amount.minorUnits).sum

def debitedIn (p : AccountId → Bool) (journal : List PostedEntry) : Int :=
  (journal.map fun e => debited p e.lines).sum

def drawnOn (p : AccountId → Bool) (lines : List DocumentLine) : Int :=
  ((lines.filter fun l => l.accountId.any p).map DocumentLine.minor).sum

def onTax (chart : ChartOfAccounts) (taxCode : String) (id : AccountId) : Bool :=
  (chart.getByCode taxCode).any fun a => a.id = id

def offTax (chart : ChartOfAccounts) (taxCode : String) (id : AccountId) : Bool :=
  ¬ onTax chart taxCode id

/-- A credit of an invoice, at its own reading of the clock: its tax comes off a given account, and
the rest off another one. -/
structure CreditCall (ctx : ArApContext) (doc : DocRecord) (taxCode : String) where
  postedAt : String
  request : CreditRequest
  tax : textOr request.salesTaxCode defaultSalesTaxCode = taxCode
  apart : ∀ code, primaryAccountOf doc request.accountCode = .ok code → code ≠ taxCode

namespace CreditCall
variable {ctx : ArApContext} {doc : DocRecord} {taxCode : String} {π : Type}

def context (call : CreditCall ctx doc taxCode) : ArApContext :=
  { ctx with postedAt := call.postedAt }

def step [PeriodStore π] (s : ArApStores π) (call : CreditCall ctx doc taxCode) : ArApStores π :=
  ((issueCredit .invoice doc.id call.request call.context).run ArApCall.exec s).2

def plan (s : ArApStores π) (call : CreditCall ctx doc taxCode) : Except ArApFailure Plan :=
  planCredit .invoice doc.id call.request call.context s.docs

/-- The credit is not answered with an entry that is already there, and if it is posted, its share
of the tax is a whole amount. -/
def Exact [PeriodStore π] (s : ArApStores π) (call : CreditCall ctx doc taxCode) : Prop :=
  ∀ plan, call.plan s = .ok plan → ¬ Replays call.context s plan ∧
    (Posts call.context s plan → ∀ doc' amount,
      s.docs.getDoc ctx.tenant .invoice doc.id = some doc' →
        creditAmountOf call.request doc' = .ok amount → doc'.totalMinor ∣ amount * doc'.taxMinor)

end CreditCall

section
variable {π : Type} [PeriodStore π] {ctx : ArApContext} {doc : DocRecord} {taxCode : String}
  {s s₀ : ArApStores π}

/-- Since the start the invoice has come to be open for `o`, while `t` was debited on the account of
the tax and `r` on others. -/
structure Credited (ctx : ArApContext) (doc : DocRecord) (taxCode : String)
    (s₀ s : ArApStores π) (o t r : Int) : Prop where
  opened : ∃ status, s.docs.getDoc ctx.tenant .invoice doc.id =
    some { doc with openMinor := o, status := status }
  tax : debitedIn (onTax ctx.chart taxCode) (s.ledger.store.list ctx.tenant) =
    debitedIn (onTax ctx.chart taxCode) (s₀.ledger.store.list ctx.tenant) + t
  revenue : debitedIn (offTax ctx.chart taxCode) (s.ledger.store.list ctx.tenant) =
    debitedIn (offTax ctx.chart taxCode) (s₀.ledger.store.list ctx.tenant) + r

variable {o t r : Int} {call : CreditCall ctx doc taxCode} {plan : Plan}

/-- Tax has been rounded away, or part of the invoice was credited without an entry. -/
def Short (doc : DocRecord) (o t r : Int) : Prop :=
  doc.totalMinor * t ≤ (doc.totalMinor - o) * doc.taxMinor ∧ t + r ≤ doc.totalMinor - o ∧
    (doc.totalMinor * t < (doc.totalMinor - o) * doc.taxMinor ∨ t + r < doc.totalMinor - o)

def Lost (ctx : ArApContext) (doc : DocRecord) (taxCode : String) (s₀ s : ArApStores π) :
    Prop := ∃ o t r, Credited ctx doc taxCode s₀ s o t r ∧ Short doc o t r

end

namespace Sample

def taxedChart : ChartOfAccounts :=
  (ChartOfAccounts.ofAccounts
    [Kernel.Sample.account "ar" "1200" .asset, Kernel.Sample.account "ap" "2000" .liability,
      Kernel.Sample.account "tax" "2200" .liability,
      Kernel.Sample.account "sales" "4000" .revenue]).toOption.getD .empty

def taxedContext : ArApContext := { context with chart := taxedChart }

/-- 10 at ten per cent. -/
def taxedInvoice : CreateDocumentRequest :=
  { invoice with
    lines := [⟨none, none, .text "10", "4000", none, none⟩]
    taxRatePpm := some (some 100000) }

def taxedDoc : DocRecord where
  id := "inv-1"
  kind := .invoice
  partyId := "globex"
  date := "2026-08-01"
  dueDate := "2026-08-31"
  netMinor := 10
  taxMinor := 1
  taxRatePpm := 100000
  totalMinor := 11
  openMinor := 11
  status := .opened
  memo := ""
  lines := [⟨"", 1, 10, "4000", 10, true, none⟩]

def credit (date : String) (amount : Option TextOrNumber) :
    CreditCall taxedContext taxedDoc "2200" where
  postedAt := date
  request := ⟨none, some date, none, amount, none, none, noOverrides⟩
  tax := by
    show textOr none defaultSalesTaxCode = "2200"
    decide
  apart := by
    intro code hcode
    have hsales : primaryAccountOf taxedDoc none = .ok "4000" := by decide
    rw [← Except.ok.inj (hsales.symm.trans hcode)]
    decide

end Sample

end Rgnr8.Service.ArAp

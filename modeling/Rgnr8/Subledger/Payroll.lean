import Rgnr8.Subledger.Documents

/-! The payroll journal, gross to net: wages and the employer's taxes are costs, and what is withheld
is owed until it is remitted. Amounts are minor units of the currency of the run. -/

namespace Rgnr8.Subledger.Payroll
open Lib Kernel

structure EmployeePay where
  employeeId : String
  grossPay : Int
  employeeTaxes : Int
  deductions : Int
  netPay : Int

structure PayrollRun where
  id : String
  date : String
  employees : List EmployeePay
  employerTaxes : Int

structure PayrollAccounts where
  wagesExpense : AccountId
  employerTaxExpense : AccountId
  cash : AccountId
  employeeTaxPayable : AccountId
  employerTaxPayable : AccountId
  deductionsPayable : AccountId

inductive PayrollError where
  | noEmployees (runId : String)
  | netDisagrees (employeeId : String) (net expected : Int)

structure PayrollTotals where
  gross : Int
  employeeTaxes : Int
  deductions : Int
  net : Int
  employerTaxes : Int

def EmployeePay.expectedNet (e : EmployeePay) : Int := e.grossPay - e.employeeTaxes - e.deductions

def payrollTotals (run : PayrollRun) : Except PayrollError PayrollTotals :=
  if run.employees = [] then .error (.noEmployees run.id)
  else match run.employees.find? fun e => e.expectedNet ≠ e.netPay with
    | some e => .error (.netDisagrees e.employeeId e.netPay e.expectedNet)
    | none => .ok {
        gross := (run.employees.map EmployeePay.grossPay).sum
        employeeTaxes := (run.employees.map EmployeePay.employeeTaxes).sum
        deductions := (run.employees.map EmployeePay.deductions).sum
        net := (run.employees.map EmployeePay.netPay).sum
        employerTaxes := run.employerTaxes }

def leg (currency : Currency) (account : AccountId) (side : EntrySide) (amount : Int)
    (memo : String) : List JournalLineInput :=
  if amount = 0 then [] else [⟨account, side, ⟨amount, currency⟩, some memo, none⟩]

def payrollLines (currency : Currency) (accounts : PayrollAccounts) (t : PayrollTotals) :
    List JournalLineInput :=
  [⟨accounts.wagesExpense, .debit, ⟨t.gross, currency⟩, some "Gross wages", none⟩] ++
    leg currency accounts.employerTaxExpense .debit t.employerTaxes "Employer payroll taxes" ++
    [⟨accounts.cash, .credit, ⟨t.net, currency⟩, some "Net pay", none⟩] ++
    leg currency accounts.employeeTaxPayable .credit t.employeeTaxes "Employee tax withholdings" ++
    leg currency accounts.employerTaxPayable .credit t.employerTaxes "Employer taxes payable" ++
    leg currency accounts.deductionsPayable .credit t.deductions "Deductions payable"

def payrollRunToPostCommand (run : PayrollRun) (accounts : PayrollAccounts)
    (ctx : DocPostContext) : Except PayrollError PostCommand := do
  let t ← payrollTotals run
  return {
    tenantId := ctx.tenantId
    idempotencyKey := "payroll:" ++ run.id
    periodKey := String.ofList (run.date.toList.take 7)
    currency := ctx.currency
    entryDate := run.date
    lines := payrollLines ctx.currency accounts t
    provenance := { ctx.provenance with
      mappingVersion := ctx.mappingVersion.getD ctx.provenance.mappingVersion }
    memo := some ("Payroll " ++ run.id) }

end Rgnr8.Subledger.Payroll

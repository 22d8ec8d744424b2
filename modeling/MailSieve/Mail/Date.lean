import MailSieve.Mail.Value

/-!
The written form of dates: `YYYY-MM-DDThh:mm:ss` and the zone, `Z` for UTC.
-/

namespace MailSieve.Mail

/-- The decimal digits of a number, with zeros in front up to a width. -/
def padded (width n : Nat) : String :=
  String.ofList (List.replicate (width - (Nat.toDigits 10 n).length) '0' ++ Nat.toDigits 10 n)

def Date.zone (d : Date) : String :=
  if d.zoneHour = 0 && d.zoneMinute = 0 then "Z"
  else
    let sign := if d.west then "-" else "+"
    s!"{sign}{padded 2 d.zoneHour}:{padded 2 d.zoneMinute}"

def Date.text (d : Date) : String :=
  s!"{padded 4 d.year}-{padded 2 d.month}-{padded 2 d.day}T{padded 2 d.hour}:{padded 2 d.minute}" ++
    s!":{padded 2 d.second}{d.zone}"

end MailSieve.Mail

import MailSieve.CommandLine.Run
import MailSieve.Files.Host

/-!
A terminal held as a value: what was written to it.
-/

namespace MailSieve.CommandLine

structure Screen where
  output : String
  messages : String

def Screen.blank : Screen := ⟨"", ""⟩

instance [Monad m] : Terminal (StateT Screen m) where
  output t := modify fun s => { s with output := s.output ++ t }
  message t := modify fun s => { s with messages := s.messages ++ t }

end MailSieve.CommandLine

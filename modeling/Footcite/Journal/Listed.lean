import Footcite.Table

/-!
# The bundled table of journals

Law reviews and other legal periodicals with their usual abbreviations.
-/

namespace Footcite

/-- Full names of journals with their abbreviations. -/
def listedJournals : Table Text := Table.ofStrings [
  ("Administrative Law Review", "Admin. L. Rev."), ("Akron Law Review", "Akron L. Rev."),
  ("Alabama Law Review", "Ala. L. Rev."), ("Albany Law Review", "Alb. L. Rev."),
  ("American Bankruptcy Law Journal", "Am. Bankr. L.J."), ("American Business Law Journal", "Am. Bus. L.J."),
  ("American Criminal Law Review", "Am. Crim. L. Rev."), ("American Journal of Comparative Law", "Am. J. Compar. L."),
  ("American Journal of International Law", "Am. J. Int'l L."),
  ("American Journal of Law & Medicine", "Am. J.L. & Med."),
  ("American Journal of Legal History", "Am. J. Legal Hist."),
  ("American Law and Economics Review", "Am. L. & Econ. Rev."), ("American University Law Review", "Am. U. L. Rev."),
  ("American University International Law Review", "Am. U. Int'l L. Rev."),
  ("American University Journal of Gender, Social Policy & the Law", "Am. U. J. Gender Soc. Pol'y & L."),
  ("Arizona Law Review", "Ariz. L. Rev."), ("Arizona State Law Journal", "Ariz. St. L.J."),
  ("Arkansas Law Review", "Ark. L. Rev."), ("Baylor Law Review", "Baylor L. Rev."),
  ("Berkeley Business Law Journal", "Berkeley Bus. L.J."),
  ("Berkeley Journal of Employment and Labor Law", "Berkeley J. Emp. & Lab. L."),
  ("Berkeley Journal of International Law", "Berkeley J. Int'l L."),
  ("Berkeley Technology Law Journal", "Berkeley Tech. L.J."), ("Boston College Law Review", "B.C. L. Rev."),
  ("Boston University Law Review", "B.U. L. Rev."), ("Brigham Young University Law Review", "BYU L. Rev."),
  ("BYU Law Review", "BYU L. Rev."), ("Brooklyn Law Review", "Brook. L. Rev."),
  ("Buffalo Law Review", "Buff. L. Rev."), ("Business Lawyer", "Bus. Law."), ("The Business Lawyer", "Bus. Law."),
  ("California Law Review", "Calif. L. Rev."), ("California Western Law Review", "Cal. W. L. Rev."),
  ("Cardozo Law Review", "Cardozo L. Rev."), ("Cardozo Arts & Entertainment Law Journal", "Cardozo Arts & Ent. L.J."),
  ("Case Western Reserve Law Review", "Case W. Rsrv. L. Rev."),
  ("Catholic University Law Review", "Cath. U. L. Rev."), ("Chapman Law Review", "Chap. L. Rev."),
  ("Chicago-Kent Law Review", "Chi.-Kent L. Rev."), ("Chicago Journal of International Law", "Chi. J. Int'l L."),
  ("Cleveland State Law Review", "Clev. St. L. Rev."), ("Colorado Law Review", "Colo. L. Rev."),
  ("University of Colorado Law Review", "U. Colo. L. Rev."), ("Columbia Business Law Review", "Colum. Bus. L. Rev."),
  ("Columbia Human Rights Law Review", "Colum. Hum. Rts. L. Rev."),
  ("Columbia Journal of Environmental Law", "Colum. J. Env't L."),
  ("Columbia Journal of Gender and Law", "Colum. J. Gender & L."),
  ("Columbia Journal of Law & the Arts", "Colum. J.L. & Arts"),
  ("Columbia Journal of Law and Social Problems", "Colum. J.L. & Soc. Probs."),
  ("Columbia Journal of Transnational Law", "Colum. J. Transnat'l L."), ("Columbia Law Review", "Colum. L. Rev."),
  ("Columbia Science and Technology Law Review", "Colum. Sci. & Tech. L. Rev."),
  ("Connecticut Law Review", "Conn. L. Rev."), ("Constitutional Commentary", "Const. Comment."),
  ("Cornell International Law Journal", "Cornell Int'l L.J."),
  ("Cornell Journal of Law and Public Policy", "Cornell J.L. & Pub. Pol'y"),
  ("Cornell Law Review", "Cornell L. Rev."), ("Creighton Law Review", "Creighton L. Rev."),
  ("Criminal Law Forum", "Crim. L.F."), ("Cumberland Law Review", "Cumb. L. Rev."),
  ("Denver Law Review", "Denv. L. Rev."), ("University of Denver Law Review", "Denv. L. Rev."),
  ("DePaul Law Review", "DePaul L. Rev."), ("Dickinson Law Review", "Dick. L. Rev."),
  ("Drake Law Review", "Drake L. Rev."), ("Duke Environmental Law & Policy Forum", "Duke Env't L. & Pol'y F."),
  ("Duke Journal of Comparative & International Law", "Duke J. Compar. & Int'l L."),
  ("Duke Journal of Constitutional Law & Public Policy", "Duke J. Const. L. & Pub. Pol'y"),
  ("Duke Journal of Gender Law & Policy", "Duke J. Gender L. & Pol'y"),
  ("Duke Law & Technology Review", "Duke L. & Tech. Rev."), ("Duke Law Journal", "Duke L.J."),
  ("Duquesne Law Review", "Duq. L. Rev."), ("Ecology Law Quarterly", "Ecology L.Q."),
  ("Elon Law Review", "Elon L. Rev."), ("Emory International Law Review", "Emory Int'l L. Rev."),
  ("Emory Law Journal", "Emory L.J."), ("Environmental Law", "Env't L."), ("Florida Law Review", "Fla. L. Rev."),
  ("Florida State University Law Review", "Fla. St. U. L. Rev."),
  ("Fordham Environmental Law Review", "Fordham Env't L. Rev."),
  ("Fordham Intellectual Property, Media & Entertainment Law Journal", "Fordham Intell. Prop. Media & Ent. L.J."),
  ("Fordham International Law Journal", "Fordham Int'l L.J."),
  ("Fordham Journal of Corporate & Financial Law", "Fordham J. Corp. & Fin. L."),
  ("Fordham Law Review", "Fordham L. Rev."), ("Fordham Urban Law Journal", "Fordham Urb. L.J."),
  ("George Mason Law Review", "Geo. Mason L. Rev."), ("George Washington Law Review", "Geo. Wash. L. Rev."),
  ("George Washington International Law Review", "Geo. Wash. Int'l L. Rev."),
  ("Georgetown Immigration Law Journal", "Geo. Immigr. L.J."),
  ("Georgetown Journal of International Law", "Geo. J. Int'l L."),
  ("Georgetown Journal of Legal Ethics", "Geo. J. Legal Ethics"),
  ("Georgetown Journal on Poverty Law & Policy", "Geo. J. on Poverty L. & Pol'y"),
  ("Georgetown Law Journal", "Geo. L.J."), ("Georgetown Law Technology Review", "Geo. L. Tech. Rev."),
  ("Georgia Law Review", "Ga. L. Rev."), ("Georgia State University Law Review", "Ga. St. U. L. Rev."),
  ("Golden Gate University Law Review", "Golden Gate U. L. Rev."), ("Gonzaga Law Review", "Gonz. L. Rev."),
  ("Green Bag", "Green Bag"), ("The Green Bag", "Green Bag"), ("Hamline Law Review", "Hamline L. Rev."),
  ("Harvard Business Law Review", "Harv. Bus. L. Rev."),
  ("Harvard Civil Rights-Civil Liberties Law Review", "Harv. C.R.-C.L. L. Rev."),
  ("Harvard Environmental Law Review", "Harv. Env't L. Rev."), ("Harvard Human Rights Journal", "Harv. Hum. Rts. J."),
  ("Harvard International Law Journal", "Harv. Int'l L.J."),
  ("Harvard Journal of Law & Gender", "Harv. J.L. & Gender"),
  ("Harvard Journal of Law & Public Policy", "Harv. J.L. & Pub. Pol'y"),
  ("Harvard Journal of Law & Technology", "Harv. J.L. & Tech."),
  ("Harvard Journal on Legislation", "Harv. J. on Legis."),
  ("Harvard Journal on Racial & Ethnic Justice", "Harv. J. on Racial & Ethnic Just."),
  ("Harvard Law & Policy Review", "Harv. L. & Pol'y Rev."), ("Harvard Law Review", "Harv. L. Rev."),
  ("Harvard Law Review Forum", "Harv. L. Rev. F."), ("Harvard Negotiation Law Review", "Harv. Negot. L. Rev."),
  ("Hastings Law Journal", "Hastings L.J."), ("Hastings Constitutional Law Quarterly", "Hastings Const. L.Q."),
  ("Hastings Communications and Entertainment Law Journal", "Hastings Commc'ns & Ent. L.J."),
  ("Hofstra Law Review", "Hofstra L. Rev."), ("Houston Law Review", "Hous. L. Rev."),
  ("Howard Law Journal", "How. L.J."), ("Idaho Law Review", "Idaho L. Rev."),
  ("Illinois Law Review", "U. Ill. L. Rev."), ("University of Illinois Law Review", "U. Ill. L. Rev."),
  ("Indiana Law Journal", "Ind. L.J."), ("Indiana Law Review", "Ind. L. Rev."), ("Iowa Law Review", "Iowa L. Rev."),
  ("Journal of Law and Economics", "J.L. & Econ."),
  ("Journal of Law, Economics, & Organization", "J.L. Econ. & Org."),
  ("Journal of Legal Analysis", "J. Legal Analysis"), ("Journal of Legal Education", "J. Legal Educ."),
  ("Journal of Legal Studies", "J. Legal Stud."), ("The Journal of Legal Studies", "J. Legal Stud."),
  ("Journal of Empirical Legal Studies", "J. Empirical Legal Stud."),
  ("Journal of Criminal Law and Criminology", "J. Crim. L. & Criminology"),
  ("Journal of Corporation Law", "J. Corp. L."), ("Journal of International Economic Law", "J. Int'l Econ. L."),
  ("Journal of Law and Politics", "J.L. & Pol."), ("Journal of Law and Religion", "J.L. & Religion"),
  ("Journal of Legislation", "J. Legis."), ("Journal of Tort Law", "J. Tort L."),
  ("Journal of Dispute Resolution", "J. Disp. Resol."),
  ("Journal of Health Politics, Policy and Law", "J. Health Pol. Pol'y & L."),
  ("Journal of Intellectual Property Law", "J. Intell. Prop. L."),
  ("Journal of Technology Law & Policy", "J. Tech. L. & Pol'y"),
  ("Journal of the Copyright Society of the U.S.A.", "J. Copyright Soc'y U.S.A."),
  ("Kansas Law Review", "Kan. L. Rev."), ("University of Kansas Law Review", "U. Kan. L. Rev."),
  ("Kentucky Law Journal", "Ky. L.J."), ("Lewis & Clark Law Review", "Lewis & Clark L. Rev."),
  ("Law and Contemporary Problems", "L. & Contemp. Probs."), ("Law & Contemporary Problems", "L. & Contemp. Probs."),
  ("Law and History Review", "L. & Hist. Rev."), ("Law & Social Inquiry", "L. & Soc. Inquiry"),
  ("Law & Society Review", "L. & Soc'y Rev."), ("Law and Human Behavior", "L. & Hum. Behav."),
  ("Law and Philosophy", "L. & Phil."), ("Legal Theory", "Legal Theory"), ("Louisiana Law Review", "La. L. Rev."),
  ("Loyola of Los Angeles Law Review", "Loy. L.A. L. Rev."),
  ("Loyola of Los Angeles Entertainment Law Review", "Loy. L.A. Ent. L. Rev."),
  ("Loyola University Chicago Law Journal", "Loy. U. Chi. L.J."), ("Loyola Law Review", "Loy. L. Rev."),
  ("Maine Law Review", "Me. L. Rev."), ("Marquette Law Review", "Marq. L. Rev."),
  ("Marquette Intellectual Property Law Review", "Marq. Intell. Prop. L. Rev."),
  ("Maryland Law Review", "Md. L. Rev."), ("McGeorge Law Review", "McGeorge L. Rev."),
  ("Mercer Law Review", "Mercer L. Rev."), ("Michigan Journal of International Law", "Mich. J. Int'l L."),
  ("Michigan Journal of Gender & Law", "Mich. J. Gender & L."),
  ("Michigan Journal of Race & Law", "Mich. J. Race & L."), ("Michigan Law Review", "Mich. L. Rev."),
  ("Michigan State Law Review", "Mich. St. L. Rev."), ("Michigan Technology Law Review", "Mich. Tech. L. Rev."),
  ("Minnesota Law Review", "Minn. L. Rev."), ("Minnesota Journal of International Law", "Minn. J. Int'l L."),
  ("Mississippi Law Journal", "Miss. L.J."), ("Missouri Law Review", "Mo. L. Rev."),
  ("Montana Law Review", "Mont. L. Rev."), ("Nebraska Law Review", "Neb. L. Rev."),
  ("Nevada Law Journal", "Nev. L.J."), ("New England Law Review", "New Eng. L. Rev."),
  ("New Mexico Law Review", "N.M. L. Rev."), ("New York Law School Law Review", "N.Y.L. Sch. L. Rev."),
  ("New York University Annual Survey of American Law", "N.Y.U. Ann. Surv. Am. L."),
  ("New York University Environmental Law Journal", "N.Y.U. Env't L.J."),
  ("New York University Journal of International Law and Politics", "N.Y.U. J. Int'l L. & Pol."),
  ("New York University Journal of Law & Business", "N.Y.U. J.L. & Bus."),
  ("New York University Journal of Legislation and Public Policy", "N.Y.U. J. Legis. & Pub. Pol'y"),
  ("New York University Law Review", "N.Y.U. L. Rev."),
  ("New York University Review of Law & Social Change", "N.Y.U. Rev. L. & Soc. Change"),
  ("North Carolina Law Review", "N.C. L. Rev."), ("North Dakota Law Review", "N.D. L. Rev."),
  ("Northeastern University Law Review", "Ne. U. L. Rev."),
  ("Northern Illinois University Law Review", "N. Ill. U. L. Rev."),
  ("Northern Kentucky Law Review", "N. Ky. L. Rev."),
  ("Northwestern Journal of International Law & Business", "Nw. J. Int'l L. & Bus."),
  ("Northwestern Journal of Technology and Intellectual Property", "Nw. J. Tech. & Intell. Prop."),
  ("Northwestern University Law Review", "Nw. U. L. Rev."), ("Notre Dame Law Review", "Notre Dame L. Rev."),
  ("Notre Dame Journal of Law, Ethics & Public Policy", "Notre Dame J.L. Ethics & Pub. Pol'y"),
  ("Ohio State Law Journal", "Ohio St. L.J."),
  ("Ohio State Journal on Dispute Resolution", "Ohio St. J. on Disp. Resol."),
  ("Ohio State Journal of Criminal Law", "Ohio St. J. Crim. L."), ("Oklahoma Law Review", "Okla. L. Rev."),
  ("Oregon Law Review", "Or. L. Rev."), ("Oxford Journal of Legal Studies", "Oxford J. Legal Stud."),
  ("Pace Law Review", "Pace L. Rev."), ("Pace Environmental Law Review", "Pace Env't L. Rev."),
  ("Penn State Law Review", "Penn St. L. Rev."), ("Pepperdine Law Review", "Pepp. L. Rev."),
  ("Pittsburgh Law Review", "U. Pitt. L. Rev."), ("University of Pittsburgh Law Review", "U. Pitt. L. Rev."),
  ("Quinnipiac Law Review", "Quinnipiac L. Rev."), ("Richmond Law Review", "U. Rich. L. Rev."),
  ("University of Richmond Law Review", "U. Rich. L. Rev."),
  ("Roger Williams University Law Review", "Roger Williams U. L. Rev."), ("Rutgers Law Review", "Rutgers L. Rev."),
  ("Rutgers University Law Review", "Rutgers U. L. Rev."), ("Rutgers Law Journal", "Rutgers L.J."),
  ("Saint Louis University Law Journal", "St. Louis U. L.J."),
  ("St. Louis University Law Journal", "St. Louis U. L.J."), ("St. John's Law Review", "St. John's L. Rev."),
  ("St. Mary's Law Journal", "St. Mary's L.J."), ("St. Thomas Law Review", "St. Thomas L. Rev."),
  ("San Diego Law Review", "San Diego L. Rev."), ("Santa Clara Law Review", "Santa Clara L. Rev."),
  ("Santa Clara High Technology Law Journal", "Santa Clara High Tech. L.J."),
  ("Seattle University Law Review", "Seattle U. L. Rev."), ("Seton Hall Law Review", "Seton Hall L. Rev."),
  ("SMU Law Review", "SMU L. Rev."), ("South Carolina Law Review", "S.C. L. Rev."),
  ("South Dakota Law Review", "S.D. L. Rev."), ("South Texas Law Review", "S. Tex. L. Rev."),
  ("Southern California Law Review", "S. Cal. L. Rev."),
  ("Southern California Interdisciplinary Law Journal", "S. Cal. Interdisc. L.J."),
  ("Southern Illinois University Law Journal", "S. Ill. U. L.J."), ("Southwestern Law Review", "Sw. L. Rev."),
  ("Stanford Environmental Law Journal", "Stan. Env't L.J."),
  ("Stanford Journal of Civil Rights & Civil Liberties", "Stan. J. C.R. & C.L."),
  ("Stanford Journal of International Law", "Stan. J. Int'l L."),
  ("Stanford Law & Policy Review", "Stan. L. & Pol'y Rev."), ("Stanford Law Review", "Stan. L. Rev."),
  ("Stanford Law Review Online", "Stan. L. Rev. Online"), ("Stanford Technology Law Review", "Stan. Tech. L. Rev."),
  ("Stanford Journal of Law, Business & Finance", "Stan. J.L. Bus. & Fin."),
  ("Stetson Law Review", "Stetson L. Rev."), ("Suffolk University Law Review", "Suffolk U. L. Rev."),
  ("Supreme Court Review", "Sup. Ct. Rev."), ("The Supreme Court Review", "Sup. Ct. Rev."),
  ("Syracuse Law Review", "Syracuse L. Rev."), ("Tax Law Review", "Tax L. Rev."), ("The Tax Lawyer", "Tax Law."),
  ("Temple Law Review", "Temp. L. Rev."), ("Tennessee Law Review", "Tenn. L. Rev."),
  ("Texas A&M Law Review", "Tex. A&M L. Rev."), ("Texas International Law Journal", "Tex. Int'l L.J."),
  ("Texas Law Review", "Tex. L. Rev."), ("Texas Review of Law & Politics", "Tex. Rev. L. & Pol."),
  ("Texas Tech Law Review", "Tex. Tech L. Rev."), ("Thomas Jefferson Law Review", "T. Jefferson L. Rev."),
  ("Touro Law Review", "Touro L. Rev."), ("Tulane Law Review", "Tul. L. Rev."),
  ("Tulane Environmental Law Journal", "Tul. Env't L.J."), ("Tulsa Law Review", "Tulsa L. Rev."),
  ("UC Davis Law Review", "U.C. Davis L. Rev."), ("UC Irvine Law Review", "U.C. Irvine L. Rev."),
  ("UCLA Law Review", "UCLA L. Rev."), ("UCLA Journal of Environmental Law & Policy", "UCLA J. Env't L. & Pol'y"),
  ("UCLA Journal of International Law and Foreign Affairs", "UCLA J. Int'l L. & Foreign Affs."),
  ("University of Arkansas at Little Rock Law Review", "U. Ark. Little Rock L. Rev."),
  ("University of Baltimore Law Review", "U. Balt. L. Rev."), ("University of Chicago Law Review", "U. Chi. L. Rev."),
  ("The University of Chicago Law Review", "U. Chi. L. Rev."),
  ("University of Chicago Legal Forum", "U. Chi. Legal F."),
  ("University of Cincinnati Law Review", "U. Cin. L. Rev."),
  ("University of Florida Journal of Law & Public Policy", "U. Fla. J.L. & Pub. Pol'y"),
  ("University of Hawai'i Law Review", "U. Haw. L. Rev."), ("University of Memphis Law Review", "U. Mem. L. Rev."),
  ("University of Miami Law Review", "U. Mia. L. Rev."),
  ("University of Michigan Journal of Law Reform", "U. Mich. J.L. Reform"),
  ("University of Pennsylvania Journal of Constitutional Law", "U. Pa. J. Const. L."),
  ("University of Pennsylvania Journal of International Law", "U. Pa. J. Int'l L."),
  ("University of Pennsylvania Journal of Business Law", "U. Pa. J. Bus. L."),
  ("University of Pennsylvania Law Review", "U. Pa. L. Rev."),
  ("University of Pennsylvania Law Review Online", "U. Pa. L. Rev. Online"),
  ("University of San Francisco Law Review", "U.S.F. L. Rev."),
  ("University of Toledo Law Review", "U. Tol. L. Rev."), ("University of Toronto Law Journal", "U. Toronto L.J."),
  ("University of Chicago Law School Roundtable", "U. Chi. L. Sch. Roundtable"), ("Utah Law Review", "Utah L. Rev."),
  ("Valparaiso University Law Review", "Val. U. L. Rev."),
  ("Vanderbilt Journal of Entertainment & Technology Law", "Vand. J. Ent. & Tech. L."),
  ("Vanderbilt Journal of Transnational Law", "Vand. J. Transnat'l L."), ("Vanderbilt Law Review", "Vand. L. Rev."),
  ("Vermont Law Review", "Vt. L. Rev."), ("Villanova Law Review", "Vill. L. Rev."),
  ("Virginia Environmental Law Journal", "Va. Env't L.J."),
  ("Virginia Journal of International Law", "Va. J. Int'l L."),
  ("Virginia Journal of Law & Technology", "Va. J.L. & Tech."), ("Virginia Law Review", "Va. L. Rev."),
  ("Virginia Tax Review", "Va. Tax Rev."), ("Wake Forest Law Review", "Wake Forest L. Rev."),
  ("Washburn Law Journal", "Washburn L.J."), ("Washington and Lee Law Review", "Wash. & Lee L. Rev."),
  ("Washington & Lee Law Review", "Wash. & Lee L. Rev."), ("Washington Law Review", "Wash. L. Rev."),
  ("Washington University Law Review", "Wash. U. L. Rev."),
  ("Washington University Journal of Law & Policy", "Wash. U. J.L. & Pol'y"), ("Wayne Law Review", "Wayne L. Rev."),
  ("West Virginia Law Review", "W. Va. L. Rev."), ("Western New England Law Review", "W. New Eng. L. Rev."),
  ("Whittier Law Review", "Whittier L. Rev."), ("Widener Law Journal", "Widener L.J."),
  ("Willamette Law Review", "Willamette L. Rev."),
  ("William & Mary Bill of Rights Journal", "Wm. & Mary Bill Rts. J."),
  ("William & Mary Environmental Law and Policy Review", "Wm. & Mary Env't L. & Pol'y Rev."),
  ("William & Mary Law Review", "Wm. & Mary L. Rev."), ("William and Mary Law Review", "Wm. & Mary L. Rev."),
  ("William Mitchell Law Review", "Wm. Mitchell L. Rev."), ("Wisconsin Law Review", "Wis. L. Rev."),
  ("Wisconsin International Law Journal", "Wis. Int'l L.J."), ("Wyoming Law Review", "Wyo. L. Rev."),
  ("Yale Journal of International Law", "Yale J. Int'l L."),
  ("Yale Journal of Law & Feminism", "Yale J.L. & Feminism"),
  ("Yale Journal of Law & the Humanities", "Yale J.L. & Human."),
  ("Yale Journal of Health Policy, Law, and Ethics", "Yale J. Health Pol'y L. & Ethics"),
  ("Yale Journal on Regulation", "Yale J. on Regul."), ("Yale Law & Policy Review", "Yale L. & Pol'y Rev."),
  ("Yale Law Journal", "Yale L.J."), ("The Yale Law Journal", "Yale L.J."), ("Yale Law Journal Forum", "Yale L.J.F."),
  ("Yale Human Rights and Development Law Journal", "Yale Hum. Rts. & Dev. L.J."),
  ("Yale Journal of Law and Technology", "Yale J.L. & Tech."), ("Alaska Law Review", "Alaska L. Rev."),
  ("American Indian Law Review", "Am. Indian L. Rev."), ("Animal Law", "Animal L."),
  ("Antitrust Law Journal", "Antitrust L.J."), ("Banking Law Journal", "Banking L.J."),
  ("Berkeley Journal of Gender, Law & Justice", "Berkeley J. Gender L. & Just."),
  ("Boston College Environmental Affairs Law Review", "B.C. Env't Affs. L. Rev."),
  ("Boston University Journal of Science & Technology Law", "B.U. J. Sci. & Tech. L."),
  ("Campbell Law Review", "Campbell L. Rev."), ("Capital University Law Review", "Cap. U. L. Rev."),
  ("Chicago Journal of International Law Online", "Chi. J. Int'l L. Online"),
  ("Cleveland-Marshall Law Review", "Clev.-Marshall L. Rev."),
  ("Connecticut Insurance Law Journal", "Conn. Ins. L.J."),
  ("Cornell Journal of Law & Public Policy", "Cornell J.L. & Pub. Pol'y"),
  ("Criminal Justice Ethics", "Crim. Just. Ethics"), ("Drexel Law Review", "Drexel L. Rev."),
  ("Florida Coastal Law Review", "Fla. Coastal L. Rev."),
  ("Florida International University Law Review", "FIU L. Rev."), ("Food and Drug Law Journal", "Food & Drug L.J."),
  ("Federal Communications Law Journal", "Fed. Commc'ns L.J."), ("Federal Circuit Bar Journal", "Fed. Cir. B.J."),
  ("Federal Sentencing Reporter", "Fed. Sent'g Rep."),
  ("Hastings International and Comparative Law Review", "Hastings Int'l & Compar. L. Rev."),
  ("Hastings Women's Law Journal", "Hastings Women's L.J."), ("Health Matrix", "Health Matrix"),
  ("Houston Journal of International Law", "Hous. J. Int'l L."),
  ("IDEA: The Law Review of the Franklin Pierce Center for Intellectual Property", "IDEA"),
  ("Indiana Journal of Global Legal Studies", "Ind. J. Glob. Legal Stud."),
  ("Journal of Law, Medicine & Ethics", "J.L. Med. & Ethics"),
  ("Journal of Small and Emerging Business Law", "J. Small & Emerging Bus. L."),
  ("John Marshall Law Review", "J. Marshall L. Rev."), ("Journal of Air Law and Commerce", "J. Air L. & Com."),
  ("Journal of Land Use & Environmental Law", "J. Land Use & Env't L."),
  ("Journal of Gender, Race & Justice", "J. Gender Race & Just."),
  ("Journal of National Security Law & Policy", "J. Nat'l Sec. L. & Pol'y"),
  ("Journal of Constitutional Law", "J. Const. L."),
  ("Journal of Appellate Practice and Process", "J. App. Prac. & Process"),
  ("Journal of the American Academy of Matrimonial Lawyers", "J. Am. Acad. Matrim. Laws."),
  ("Law Library Journal", "L. Libr. J."), ("Legal Reference Services Quarterly", "Legal Reference Servs. Q."),
  ("Loyola Consumer Law Review", "Loy. Consumer L. Rev."), ("Marquette Sports Law Review", "Marq. Sports L. Rev."),
  ("Michigan Business & Entrepreneurial Law Review", "Mich. Bus. & Entrepreneurial L. Rev."),
  ("Minnesota Journal of Law, Science & Technology", "Minn. J.L. Sci. & Tech."),
  ("Missouri Environmental Law and Policy Review", "Mo. Env't L. & Pol'y Rev."),
  ("National Black Law Journal", "Nat'l Black L.J."), ("Natural Resources Journal", "Nat. Res. J."),
  ("New Criminal Law Review", "New Crim. L. Rev."), ("Northwestern Journal of Human Rights", "Nw. J. Hum. Rts."),
  ("Nova Law Review", "Nova L. Rev."), ("Ohio Northern University Law Review", "Ohio N.U. L. Rev."),
  ("Oklahoma City University Law Review", "Okla. City U. L. Rev."),
  ("Public Contract Law Journal", "Pub. Cont. L.J."), ("Regent University Law Review", "Regent U. L. Rev."),
  ("Review of Litigation", "Rev. Litig."), ("The Review of Litigation", "Rev. Litig."),
  ("Rutgers Computer & Technology Law Journal", "Rutgers Comput. & Tech. L.J."),
  ("Seattle Journal for Social Justice", "Seattle J. for Soc. Just."),
  ("Southern University Law Review", "S.U. L. Rev."),
  ("Southwestern Journal of International Law", "Sw. J. Int'l L."),
  ("St. Mary's Law Review on Race and Social Justice", "St. Mary's L. Rev. on Race & Soc. Just."),
  ("Texas Journal on Civil Liberties & Civil Rights", "Tex. J. C.L. & C.R."),
  ("Texas Environmental Law Journal", "Tex. Env't L.J."),
  ("Texas Intellectual Property Law Journal", "Tex. Intell. Prop. L.J."),
  ("Transnational Law & Contemporary Problems", "Transnat'l L. & Contemp. Probs."),
  ("UMKC Law Review", "UMKC L. Rev."), ("University of Arkansas Law Review", "U. Ark. L. Rev."),
  ("University of California Davis Law Review", "U.C. Davis L. Rev."),
  ("University of Detroit Mercy Law Review", "U. Det. Mercy L. Rev."),
  ("University of Louisville Law Review", "U. Louisville L. Rev."),
  ("University of Massachusetts Law Review", "U. Mass. L. Rev."),
  ("University of New Hampshire Law Review", "U.N.H. L. Rev."),
  ("University of St. Thomas Law Journal", "U. St. Thomas L.J."),
  ("Vanderbilt Law Review En Banc", "Vand. L. Rev. En Banc"),
  ("Villanova Environmental Law Journal", "Vill. Env't L.J."),
  ("Virginia Journal of Social Policy & the Law", "Va. J. Soc. Pol'y & L."),
  ("Virginia Sports and Entertainment Law Journal", "Va. Sports & Ent. L.J."),
  ("Washington Journal of Law, Technology & Arts", "Wash. J.L. Tech. & Arts"),
  ("Washington and Lee Journal of Civil Rights and Social Justice", "Wash. & Lee J.C.R. & Soc. Just."),
  ("West Virginia University Law Review", "W. Va. L. Rev."), ("Wisconsin Women's Law Journal", "Wis. Women's L.J."),
  ("Yale Journal of Law and Liberation", "Yale J.L. & Liberation")]

end Footcite
